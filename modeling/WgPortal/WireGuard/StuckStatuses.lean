import WgPortal.WireGuard.Cluster

/-! Whether a peer that no device sees any more is stored as disconnected, once every
running process has completed a cycle. -/

namespace WgPortal.WireGuard.StuckStatuses

open Domain Library Adapters Config System Cluster

variable {ι : Type} [DecidableEq ι] (cfg : ι → Config) (order : ι → MapOrder PeerIdentifier)
  (id : PeerIdentifier)

/-- The process has the peer among its active ones. -/
def Caches (cache : ActivePeers) (x : PeerIdentifier) : Prop := ∃ iface, x ∈ cache iface

/-- The node does not own the status of the peer as that of a connected one. -/
def NotOwned (db : Db) (node : String) (x : PeerIdentifier) : Prop :=
  ∀ row, db.peerStatuses.find x = some row → row.isConnected = true → row.ownerNodeId ≠ node

/-- The clock of a process does not go back, and while it is quiet no device of a
running process shows a recent handshake of the peer. -/
def premises : Guard ι (Env ι) Unit StatsOp Occasion (State ι) where
  env := fun _ _ => True
  start := fun _ _ _ => True
  step := fun s i op o => s.life i = .running → s.clock i ≤ o.now ∧
    match op with
    | .getPeers iface => s.history.quiet = true →
        ∀ wgPeer ∈ s.devices i iface.identifier, wgPeer.identifier = id →
          isActive o.now wgPeer = false
    | _ => True

/-- No process stops while its node owns the status of a connected peer, and no
operation fails by which such a status is marked. -/
def condition : Guard ι (Env ι) Unit StatsOp Occasion (State ι) where
  env := fun s e =>
    match e with
    | .stop i => ∀ row ∈ s.db.peerStatuses.rows, row.isConnected = true →
        row.ownerNodeId ≠ nodeId cfg i
    | _ => True
  start := fun _ _ _ => True
  step := fun s i op o => s.life i = .running → o.fault ≠ none →
    match op with
    | .getPeer .disconnect x => NotOwned s.db (nodeId cfg i) x
    | .updatePeerStatus .disconnect x _ => NotOwned s.db (nodeId cfg i) x
    | _ => True

/-- Whoever stores a peer as connected tracks it. -/
structure Invariant (s : State ι) : Prop where
  whole : Orphans.NoOrphans s.db
  tracked : ∀ row ∈ s.db.peerStatuses.rows, row.isConnected = true →
    ∃ i, s.life i = .running ∧ nodeId cfg i = row.ownerNodeId ∧ row.peerId ∈ s.history.tracked i
  cached : ∀ i, s.life i = .running → s.history.busy i = false →
    ∀ x ∈ s.history.tracked i, Caches (s.activeConnectedPeers i) x
  listed : ∀ i iface, s.activeConnectedPeers i iface ≠ [] →
    iface ∈ s.db.interfaces.rows.map Interface.identifier
  began : ∀ i, s.history.began i = true → s.history.quiet = true
  completed : ∀ i, s.life i = .running → s.history.completed i = true →
    s.history.quiet = true ∧ id ∉ s.history.tracked i ∧ ¬ Caches (s.activeConnectedPeers i) id ∧
      (s.history.busy i = true → s.history.began i = true)
  unborn : ∀ i, s.life i = .unborn →
    s.history.tracked i = [] ∧ (∀ iface, s.activeConnectedPeers i iface = []) ∧
      s.history.busy i = false ∧ s.history.completed i = false

/-- What a process relies on. -/
structure Relies (i : ι) (s t : State ι) : Prop where
  born : s.life i ≠ .unborn → t.life i ≠ .unborn
  running : s.life i ≠ .unborn → t.life i = .running → s.life i = .running
  interfaces : t.db.interfaces = s.db.interfaces
  active : t.activeConnectedPeers i = s.activeConnectedPeers i
  clock : t.clock i = s.clock i
  tracked : t.history.tracked i = s.history.tracked i
  busy : t.history.busy i = s.history.busy i
  began : t.history.began i = true → s.history.began i = true

def contract : Contract ι (State ι) where
  inv := Invariant cfg id
  rely := Relies
  refl := fun _ _ => ⟨fun h => h, fun _ h => h, rfl, rfl, rfl, rfl, rfl, fun h => h⟩
  trans := fun _ _ _ _ first second =>
    { born := fun h => second.born (first.born h)
      running := fun h live => first.running h (second.running (first.born h) live)
      interfaces := second.interfaces.trans first.interfaces
      active := second.active.trans first.active
      clock := second.clock.trans first.clock
      tracked := second.tracked.trans first.tracked
      busy := second.busy.trans first.busy
      began := fun h => first.began (second.began h) }

/-- Both guards, and a process is in one cycle at a time. -/
def guard : Guard ι (Env ι) Unit StatsOp Occasion (State ι) where
  env := (condition cfg).env
  start := fun s i _ => s.life i = .running → s.history.busy i = false
  step := fun s i op o => (premises id).step s i op o ∧ (condition cfg).step s i op o

variable {cfg order id}

omit [DecidableEq ι] in
/-- Another database in which no more peers are connected. -/
theorem Invariant.database {s : State ι} (inv : Invariant cfg id s) {db : Db}
    (whole : Orphans.NoOrphans db) (interfaces : db.interfaces = s.db.interfaces)
    (statuses : ∀ row ∈ db.peerStatuses.rows, row ∈ s.db.peerStatuses.rows ∨ row.isConnected = false) :
    Invariant cfg id { s with db := db } where
  whole := whole
  tracked := by
    intro row listed online
    rcases statuses row listed with before | offline
    · exact inv.tracked row before online
    · exact absurd (online.symm.trans offline) (by decide)
  cached := inv.cached
  listed := fun i iface some => by
    rw [show ({ s with db := db } : State ι).db.interfaces = s.db.interfaces from interfaces]
    exact inv.listed i iface some
  began := inv.began
  completed := inv.completed
  unborn := inv.unborn

omit [DecidableEq ι] in
theorem relies_database (i : ι) (s : State ι) {db : Db}
    (interfaces : db.interfaces = s.db.interfaces) :
    Relies i s { s with db := db } :=
  ⟨fun h => h, fun _ h => h, interfaces, rfl, rfl, rfl, rfl, fun h => h⟩

theorem savePeer_statuses (db : Db) (ui : UserIdentifier) (now : Time) (x : PeerIdentifier)
    (statusFault : Option Error) (updateFunc : Peer → Except Error Peer) :
    let db' := (Orphans.savePeer db ui now x statusFault updateFunc).2
    db'.interfaces = db.interfaces ∧ ∀ row ∈ db'.peerStatuses.rows,
      row ∈ db.peerStatuses.rows ∨ row.isConnected = false := by
  have created : (Orphans.createPeer db ui now x).peerStatuses = db.peerStatuses ∧
      (Orphans.createPeer db ui now x).interfaces = db.interfaces := by
    unfold Orphans.createPeer
    split <;> exact ⟨rfl, rfl⟩
  have reset : ∀ {t : Table PeerStatus.peerId}, t = db.peerStatuses →
      ∀ row ∈ (t.upsert (PeerStatus.fresh x now)).rows,
        row ∈ db.peerStatuses.rows ∨ row.isConnected = false := by
    intro t same row listed
    rcases Table.mem_upsert.mp listed with rfl | ⟨before, _⟩
    · exact .inr rfl
    · exact .inl (same ▸ before)
  simp only [Orphans.savePeer]
  split
  · exact ⟨rfl, fun row listed => .inl listed⟩
  · split
    · exact ⟨created.2, fun row listed => .inl (created.1 ▸ listed)⟩
    · simp only [Db.commitPeer, Db.ensurePeerStatus_interfaces]
      refine ⟨created.2, ?_⟩
      simp only [Db.ensurePeerStatus]
      split
      · split
        · exact reset created.1
        · exact fun row listed => .inl (created.1 ▸ listed)
      · exact reset created.1

theorem launch_keeps {s : State ι} {i : ι} (inv : Invariant cfg id s) (unborn : s.life i = .unborn) :
    Invariant cfg id { s with life := Function.update s.life i .running } ∧
      ∀ j, Relies j s { s with life := Function.update s.life i .running } := by
  have blank := inv.unborn i unborn
  have other : ∀ j, s.life j ≠ .unborn →
      Function.update s.life i Life.running j = s.life j := by
    intro j born
    refine Function.update_of_ne (fun same => born ?_) _ _
    rw [same, unborn]
  refine ⟨?_, fun j => ?_⟩
  · refine ⟨inv.whole, fun row listed online => ?_, fun j live idle => ?_, inv.listed, inv.began,
      fun j live clean => ?_, fun j still => ?_⟩
    · obtain ⟨j, live, owner, tracks⟩ := inv.tracked row listed online
      exact ⟨j, (other j (by simp [live])).trans live, owner, tracks⟩
    · by_cases same : j = i
      · rw [same, blank.1]
        exact fun x none => absurd none List.not_mem_nil
      · simp only [Function.update_of_ne same] at live
        exact inv.cached j live idle
    · by_cases same : j = i
      · rw [same] at clean
        exact absurd (clean.symm.trans blank.2.2.2) (by decide)
      · simp only [Function.update_of_ne same] at live
        exact inv.completed j live clean
    · by_cases same : j = i
      · simp [same] at still
      · simp only [Function.update_of_ne same] at still
        exact inv.unborn j still
  · exact ⟨fun born => (other j born).trans_ne born, fun born live => (other j born).symm.trans live,
      rfl, rfl, rfl, rfl, rfl, fun h => h⟩

theorem stop_keeps {s : State ι} {i : ι} (inv : Invariant cfg id s) (running : s.life i = .running)
    (free : ∀ row ∈ s.db.peerStatuses.rows, row.isConnected = true →
      row.ownerNodeId ≠ nodeId cfg i) :
    Invariant cfg id { s with life := Function.update s.life i .stopped } ∧
      ∀ j, Relies j s { s with life := Function.update s.life i .stopped } := by
  have back : ∀ j, Function.update s.life i Life.stopped j = .running →
      j ≠ i ∧ s.life j = .running := by
    intro j live
    by_cases same : j = i
    · simp [same] at live
    · exact ⟨same, by simpa [Function.update_of_ne same] using live⟩
  have still : ∀ j, Function.update s.life i Life.stopped j = .unborn ↔ s.life j = .unborn := by
    intro j
    by_cases same : j = i
    · simp [same, running]
    · simp [Function.update_of_ne same]
  refine ⟨?_, fun j => ?_⟩
  · refine ⟨inv.whole, fun row listed online => ?_, fun j live => inv.cached j (back j live).2,
      inv.listed, inv.began, fun j live => inv.completed j (back j live).2,
      fun j unborn => inv.unborn j ((still j).mp unborn)⟩
    obtain ⟨j, live, owner, tracks⟩ := inv.tracked row listed online
    have ne : j ≠ i := fun same => free row listed online (same ▸ owner.symm)
    exact ⟨j, by simpa [Function.update_of_ne ne] using live, owner, tracks⟩
  · exact ⟨fun born => (still j).not.mpr born, fun _ live => (back j live).2, rfl, rfl, rfl, rfl,
      rfl, fun h => h⟩

theorem env_keeps {e : Env ι} {s t : State ι} (inv : Invariant cfg id s)
    (allowed : (guard cfg id).env s e) (step : e.apply s = some t) :
    Invariant cfg id t ∧ ∀ i, Relies i s t := by
  cases e with
  | savePeer userId now x statusFault updateFunc =>
    rw [← Option.some.inj step]
    have saved := savePeer_statuses s.db userId now x statusFault updateFunc
    exact ⟨inv.database (Orphans.noOrphans_savePeer inv.whole rfl) saved.1 saved.2,
      fun i => relies_database i s saved.1⟩
  | deletePeers ids =>
    rw [← Option.some.inj step]
    refine ⟨inv.database (Orphans.noOrphans_deletePeers inv.whole ids) rfl fun row listed => ?_,
      fun i => relies_database i s rfl⟩
    exact .inl (List.mem_filter.mp listed).1
  | deletePeerStatus x =>
    rw [← Option.some.inj step]
    refine ⟨inv.database (inv.whole.congr (fun _ known => known) (fun row listed => ?_)
      fun _ => .inl) rfl fun row listed => ?_, fun i => relies_database i s rfl⟩
    · exact .inl (List.mem_filter.mp listed).1
    · exact .inl (List.mem_filter.mp listed).1
  | device i iface peers =>
    rw [← Option.some.inj step]
    exact ⟨⟨inv.whole, inv.tracked, inv.cached, inv.listed, inv.began, inv.completed, inv.unborn⟩,
      fun j => ⟨fun h => h, fun _ h => h, rfl, rfl, rfl, rfl, rfl, fun h => h⟩⟩
  | launch i =>
    simp only [Env.apply] at step
    split at step
    · rename_i unborn
      rw [← Option.some.inj step]
      exact launch_keeps inv unborn
    · cases step
  | stop i =>
    simp only [Env.apply] at step
    split at step
    · rename_i running
      rw [← Option.some.inj step]
      exact stop_keeps inv running allowed
    · cases step
  | quiet isQuiet =>
    rw [← Option.some.inj step]
    refine ⟨⟨inv.whole, inv.tracked, inv.cached, inv.listed, fun _ never => ?_,
      fun _ _ never => ?_, fun i unborn => ?_⟩, fun j =>
      ⟨fun h => h, fun _ h => h, rfl, rfl, rfl, rfl, rfl, fun never => ?_⟩⟩
    · cases never
    · cases never
    swap
    · cases never
    have blank := inv.unborn i unborn
    exact ⟨blank.1, blank.2.1, blank.2.2.1, rfl⟩

/-- What the collector issues: claims for its own node, and while it is quiet none of the
peer; updates that keep whether a peer is connected; and marks. -/
structure Fits (cfg : ι → Config) (id : PeerIdentifier) (i : ι) (s : State ι) (op : StatsOp) :
    Prop where
  claims : ∀ x owner f, op = .claimPeerStatus x owner f →
    owner = nodeId cfg i ∧ (s.history.began i = true → x ≠ id)
  refreshes : ∀ x f, op = .updatePeerStatus .refresh x f → ∀ now old,
    (f.apply now old).isConnected = old.isConnected ∧
      (f.apply now old).ownerNodeId = old.ownerNodeId
  marks : ∀ x f, op = .updatePeerStatus .disconnect x f → f = disconnecting

variable {i : ι} {op : StatsOp} {o : Occasion} {s : State ι}

/-- A status that is read as connected is stored. -/
theorem stored_of_readStatus {db : Db} {x : PeerIdentifier} {began : Time}
    (online : (readStatus db x began).isConnected = true) :
    db.peerStatuses.find x = some (readStatus db x began) := by
  unfold readStatus at online ⊢
  cases found : db.peerStatuses.find x with
  | none =>
    rw [found] at online
    cases online
  | some row => rfl

theorem ownedUpdate_online_owner {node : String} {old new : PeerStatus}
    (owner : new.ownerNodeId = old.ownerNodeId)
    (online : (ownedUpdate node old new).isConnected = true) :
    (ownedUpdate node old new).ownerNodeId = old.ownerNodeId := by
  cases foreign : old.isConnected && old.ownerNodeId ≠ "" && old.ownerNodeId ≠ node with
  | true =>
    simp only [Bool.and_eq_true, decide_eq_true_eq] at foreign
    have owned : StatusOwnership.OwnedBy old old.ownerNodeId := ⟨foreign.1.1, rfl, foreign.1.2⟩
    exact (StatusOwnership.ownedUpdate_sameState owned (Ne.symm foreign.2) new).ownerNodeId
  | false =>
    simp only [ownedUpdate, foreign, Bool.false_eq_true, if_false] at online ⊢
    cases connected : new.isConnected with
    | true => simpa [connected] using owner
    | false =>
      rw [connected] at online
      split at online
      · cases online
      · rw [connected] at online
        cases online

theorem ownedUpdate_disconnecting_online {node : String} {old : PeerStatus} {now : Time}
    (online : (ownedUpdate node old (disconnecting.apply now old)).isConnected = true) :
    old.isConnected = true ∧ old.ownerNodeId ≠ node := by
  simp only [ownedUpdate] at online
  split at online
  · rename_i foreign
    simp only [Bool.and_eq_true, decide_eq_true_eq] at foreign
    exact ⟨foreign.1.1, by simpa using foreign.2⟩
  · split at online <;> simp [disconnecting] at online

omit [DecidableEq ι] in
theorem noOrphans_row (inv : Invariant cfg id s) :
    Orphans.NoOrphans (storeStatus s.db (op.row (cfg i) o s.db)) := by
  cases written : op.row (cfg i) o s.db with
  | none => exact inv.whole
  | some row =>
    have wrote := row_eq_some.mp written
    refine Orphans.noOrphans_putStatus inv.whole ?_
    have target := wrote.peerId
    cases wrote with
    | update committed stored => rwa [← Option.some.inj target]
    | claim named committed known =>
      rw [← Option.some.inj target]
      intro gone
      refine known ⟨?_, gone⟩
      by_contra found
      obtain ⟨row, found⟩ := Option.ne_none_iff_exists'.mp found
      have stored := inv.whole.statuses row (Table.mem_of_find found)
      rw [Table.key_of_find found] at stored
      exact stored gone

theorem online_of_ownedUpdate {node : String} {old new : PeerStatus}
    (online : (ownedUpdate node old new).isConnected = true) :
    old.isConnected = true ∨ new.isConnected = true := by
  by_contra offline
  rw [not_or, Bool.not_eq_true, Bool.not_eq_true] at offline
  simp only [ownedUpdate, offline.1, Bool.false_and, Bool.false_eq_true, if_false] at online
  split at online
  · rw [offline.2] at online
    cases online
  · rw [offline.2] at online
    cases online

/-- Who stores a peer as connected tracks it after the operation, too. -/
theorem tracked_row (inv : Invariant cfg id s) (running : s.life i = .running)
    (fits : Fits cfg id i s op) {answer : op.Res} {row : PeerStatus}
    (wrote : Wrote (cfg i) o s.db op row) (online : row.isConnected = true) :
    ∃ j, s.life j = .running ∧ nodeId cfg j = row.ownerNodeId ∧ row.peerId ∈
      Function.update s.history.tracked i (track op answer (s.history.tracked i)) j := by
  have target := wrote.peerId
  cases wrote with
  | claim named committed known =>
    rename_i x owner f
    refine ⟨i, running, (fits.claims x owner f rfl).1.symm, ?_⟩
    rw [← Option.some.inj target]
    simp [track]
  | update committed stored =>
    rename_i purpose x f
    rw [← Option.some.inj target]
    have before : (readStatus s.db x o.began).isConnected = true →
        ∃ j, s.life j = .running ∧ nodeId cfg j = (readStatus s.db x o.began).ownerNodeId ∧
          x ∈ s.history.tracked j := by
      intro was
      have listed := Table.mem_of_find (stored_of_readStatus was)
      have tracks := inv.tracked _ listed was
      rwa [readStatus_peerId] at tracks
    cases purpose with
    | refresh =>
      have keeps := fits.refreshes x f rfl o.now (readStatus s.db x o.began)
      have was : (readStatus s.db x o.began).isConnected = true := by
        rcases online_of_ownedUpdate online with was | is
        · exact was
        · exact keeps.1.symm.trans is
      obtain ⟨j, live, owner, tracks⟩ := before was
      refine ⟨j, live, owner.trans (ownedUpdate_online_owner keeps.2 online).symm, ?_⟩
      by_cases same : j = i
      · simpa [same, track] using same ▸ tracks
      · rwa [Function.update_of_ne same]
    | disconnect =>
      have marks := fits.marks x f rfl
      subst marks
      obtain ⟨was, foreign⟩ := ownedUpdate_disconnecting_online online
      obtain ⟨j, live, owner, tracks⟩ := before was
      have kept : (ownedUpdate (cfg i).core.clusterNodeId (readStatus s.db x o.began)
          (disconnecting.apply o.now (readStatus s.db x o.began))).ownerNodeId =
          (readStatus s.db x o.began).ownerNodeId := ownedUpdate_online_owner rfl online
      refine ⟨j, live, owner.trans kept.symm, ?_⟩
      have same : j ≠ i := by
        rintro rfl
        exact foreign owner.symm
      rwa [Function.update_of_ne same]

/-- A status that the operation leaves alone is tracked as before. -/
theorem tracked_kept (inv : Invariant cfg id s) (running : s.life i = .running)
    (allowed : (condition cfg).step s i op o) {row : PeerStatus}
    (listed : row ∈ s.db.peerStatuses.rows) (online : row.isConnected = true)
    (kept : ∀ new, Wrote (cfg i) o s.db op new → row.peerId ≠ new.peerId) :
    ∃ j, s.life j = .running ∧ nodeId cfg j = row.ownerNodeId ∧ row.peerId ∈
      Function.update s.history.tracked i
        (track op (op.answer (cfg i) (s.devices i) o s.db) (s.history.tracked i)) j := by
  obtain ⟨j, live, owner, tracks⟩ := inv.tracked row listed online
  refine ⟨j, live, owner, ?_⟩
  by_cases same : j = i
  · subst same
    rw [Function.update_self]
    have owned : ¬ NotOwned s.db (nodeId cfg j) row.peerId := fun free =>
      free row (Table.find_of_mem listed) online owner.symm
    have stored := inv.whole.statuses row listed
    have failed := allowed running
    have filtered : ∀ x, row.peerId ≠ x → row.peerId ∈ (s.history.tracked j).filter (· ≠ x) :=
      fun x other => List.mem_filter.mpr ⟨tracks, by simpa using other⟩
    cases op with
    | claimPeerStatus x owner f => exact List.mem_cons_of_mem _ tracks
    | getPeer purpose x =>
      cases purpose with
      | refresh => exact tracks
      | disconnect =>
        cases fault : o.fault with
        | some err =>
          simp only [StatsOp.answer, fault, track]
          refine filtered x fun same => owned ?_
          exact same ▸ failed (by simp [fault])
        | none =>
          cases known : s.db.peers.find x with
          | none =>
            simp only [StatsOp.answer, fault, Db.getPeer, Db.peer, known, Option.map_none, track]
            refine filtered x fun same => stored ?_
            rw [same, known]
          | some peer =>
            simpa only [StatsOp.answer, fault, Db.getPeer, Db.peer, known, Option.map_some, track]
              using tracks
    | updatePeerStatus purpose x f =>
      cases purpose with
      | refresh => exact tracks
      | disconnect =>
        refine filtered x fun same => ?_
        cases fault : o.fault with
        | some err => exact owned (same ▸ failed (by simp [fault]))
        | none =>
          have wrote : Wrote (cfg j) o s.db (.updatePeerStatus .disconnect x f) _ :=
            .update fault (same ▸ stored)
          exact kept _ wrote (same.trans (Option.some.inj wrote.peerId))
    | _ => exact tracks
  · rwa [Function.update_of_ne same]

theorem mem_track {answer : op.Res} {tracked : List PeerIdentifier} {x : PeerIdentifier}
    (tracks : x ∈ track op answer tracked) :
    x ∈ tracked ∨ ∃ owner f, op = .claimPeerStatus x owner f := by
  unfold track at tracks
  split at tracks
  · rcases List.mem_cons.mp tracks with rfl | before
    · exact .inr ⟨_, _, rfl⟩
    · exact .inl before
  · exact .inl (List.mem_filter.mp tracks).1
  · exact .inl (List.mem_filter.mp tracks).1
  · exact .inl tracks

theorem perform_answer :
    (perform cfg i op o s).1 = op.answer (cfg i) (s.devices i) o s.db := by
  unfold perform
  split <;> rfl

theorem perform_running (running : s.life i = .running) :
    (perform cfg i op o s).2 = { s with
      db := storeStatus s.db (op.row (cfg i) o s.db)
      clock := Function.update s.clock i o.now
      history := { s.history with
        tracked := Function.update s.history.tracked i
          (track op (op.answer (cfg i) (s.devices i) o s.db) (s.history.tracked i)) } } := by
  rw [perform, if_pos running]

theorem storeStatus_interfaces (db : Db) (row : Option PeerStatus) :
    (storeStatus db row).interfaces = db.interfaces := by
  cases row <;> rfl

/-- An operation that the collector issues in a cycle keeps the contract. -/
theorem perform_keeps (inv : Invariant cfg id s) (allowed : (guard cfg id).step s i op o)
    (fits : s.life i = .running → Fits cfg id i s op)
    (busy : s.life i = .running → s.history.busy i = true) :
    (contract cfg id).Keeps i s (perform cfg i op o s).2 := by
  by_cases running : s.life i = .running
  swap
  · rw [perform, if_neg running]
    exact ⟨inv, fun j _ => (contract cfg id).refl j s⟩
  have fits := fits running
  have others : ∀ {α : Type} (f : ι → α) (v : α) {j : ι}, j ≠ i → Function.update f i v j = f j :=
    fun f v j ne => Function.update_of_ne ne v f
  rw [perform_running running]
  refine ⟨⟨noOrphans_row inv, ?_, ?_, ?_, inv.began, ?_, ?_⟩, fun j ne => ?_⟩
  · intro row listed online
    cases written : op.row (cfg i) o s.db with
    | none =>
      simp only [written, storeStatus] at listed
      refine tracked_kept inv running allowed.2 listed online fun new wrote => ?_
      rw [row_eq_some.mpr wrote] at written
      cases written
    | some new =>
      simp only [written, storeStatus] at listed
      have wrote := row_eq_some.mp written
      rcases Table.mem_upsert.mp listed with rfl | ⟨before, other⟩
      · exact tracked_row inv running fits wrote online
      · refine tracked_kept inv running allowed.2 before online fun new' wrote' => ?_
        rw [← Option.some.inj (written.symm.trans (row_eq_some.mpr wrote'))]
        exact other
  · intro j live idle
    by_cases same : j = i
    · rw [same, busy running] at idle
      cases idle
    · simp only [others _ _ same]
      exact inv.cached j live idle
  · intro j iface some
    simp only [storeStatus_interfaces]
    exact inv.listed j iface some
  · intro j live clean
    obtain ⟨quiet, untracked, uncached, began⟩ := inv.completed j live clean
    refine ⟨quiet, ?_, uncached, began⟩
    by_cases same : j = i
    · subst same
      simp only [Function.update_self]
      intro tracks
      rcases mem_track tracks with before | ⟨owner, f, claim⟩
      · exact untracked before
      · exact (fits.claims id owner f claim).2 (began (busy running)) rfl
    · simpa only [others _ _ same] using untracked
  · intro j unborn
    have same : j ≠ i := by
      rintro rfl
      exact absurd (running.symm.trans unborn) (by decide)
    simp only [others _ _ same]
    exact inv.unborn j unborn
  · exact ⟨fun h => h, fun _ h => h, storeStatus_interfaces .., rfl, others _ _ ne, others _ _ ne,
      rfl, fun h => h⟩

/-- A process is in a cycle that it began with these active peers. It tracks peers of `K`
only, and if the cycle was begun while it is quiet, `P` holds. -/
structure During (i : ι) (cache : ActivePeers) (interfaces : Table Interface.identifier)
    (K : PeerIdentifier → Prop) (P : Prop) (s : State ι) : Prop where
  born : s.life i ≠ .unborn
  busy : s.history.busy i = true
  active : s.activeConnectedPeers i = cache
  interfaces : s.db.interfaces = interfaces
  tracked : s.life i = .running → ∀ x ∈ s.history.tracked i, K x
  quiet : s.life i = .running → s.history.began i = true → P

variable {cache : ActivePeers} {interfaces : Table Interface.identifier}
  {K : PeerIdentifier → Prop} {P : Prop} {t : State ι}

omit [DecidableEq ι] in
theorem During.stable (relies : Relies i s t) (during : During i cache interfaces K P s) :
    During i cache interfaces K P t where
  born := relies.born during.born
  busy := relies.busy.trans during.busy
  active := relies.active.trans during.active
  interfaces := relies.interfaces.trans during.interfaces
  tracked := fun live => by
    rw [relies.tracked]
    exact during.tracked (relies.running during.born live)
  quiet := fun live began => during.quiet (relies.running during.born live) (relies.began began)

omit [DecidableEq ι] in
theorem During.mono {K' : PeerIdentifier → Prop} {P' : Prop}
    (during : During i cache interfaces K P s) (more : ∀ x, K x → K' x) (weaker : P → P') :
    During i cache interfaces K' P' s :=
  ⟨during.born, during.busy, during.active, during.interfaces,
    fun live x tracks => more x (during.tracked live x tracks),
    fun live began => weaker (during.quiet live began)⟩

/-- What an operation makes of the peers that are tracked. -/
theorem During.perform (during : During i cache interfaces K P s) {K' : PeerIdentifier → Prop}
    (next : ∀ tracked, (∀ x ∈ tracked, K x) → ∀ x ∈ track op
      (op.answer (cfg i) (s.devices i) o s.db) tracked, K' x) :
    During i cache interfaces K' P (perform cfg i op o s).2 := by
  by_cases running : s.life i = .running
  · rw [perform_running running]
    refine ⟨during.born, during.busy, during.active, ?_, fun live => ?_, during.quiet⟩
    · exact (storeStatus_interfaces ..).trans during.interfaces
    · simp only [Function.update_self]
      exact next _ (during.tracked running)
  · rw [Cluster.perform, if_neg running]
    exact ⟨during.born, during.busy, during.active, during.interfaces,
      fun live => absurd live running, during.quiet⟩

/-- Operations on peers of which some may be claimed. -/
def Refreshes (node : String) (claimable : List PeerIdentifier) : StatsOp → Prop
  | .claimPeerStatus x owner _ => owner = node ∧ x ∈ claimable
  | .updatePeerStatus .refresh _ f => ∀ now old,
      (f.apply now old).isConnected = old.isConnected ∧
        (f.apply now old).ownerNodeId = old.ownerNodeId
  | .updatePeerStatus .disconnect .. => False
  | .getPeer .disconnect _ => False
  | _ => True

omit [DecidableEq ι] in
theorem fits_of_refreshes {claimable : List PeerIdentifier}
    (refreshes : Refreshes (nodeId cfg i) claimable op) (during : During i cache interfaces K P s)
    (never : P → id ∉ claimable) (running : s.life i = .running) : Fits cfg id i s op where
  claims := by
    rintro x owner f rfl
    refine ⟨refreshes.1, fun began same => ?_⟩
    exact never (during.quiet running began) (same ▸ refreshes.2)
  refreshes := by
    rintro x f rfl
    exact refreshes
  marks := by
    rintro x f rfl
    exact refreshes.elim

theorem sound_refreshes {β : Type} {prog : Program StatsOp StatsOp.Res β}
    {claimable : List PeerIdentifier} (uses : prog.Uses (Refreshes (nodeId cfg i) claimable))
    (known : ∀ x ∈ claimable, K x) (never : P → id ∉ claimable)
    (during : During i cache interfaces K P s) :
    (contract cfg id).Sound (system cfg order) (guard cfg id) i
      (fun _ => During i cache interfaces K P) prog s := by
  refine Contract.Sound.of_uses (fun _ _ relies during => during.stable relies) ?_ uses during
  intro op t o refreshes inv during allowed
  refine ⟨perform_keeps inv allowed (fits_of_refreshes refreshes during never)
    (fun _ => during.busy), during.perform fun tracked all x tracks => ?_⟩
  rcases mem_track tracks with before | ⟨owner, f, rfl⟩
  · exact all x before
  · exact known x refreshes.2

theorem refreshes_of_reports {node : String} {claimable : List PeerIdentifier} {op : StatsOp}
    (reports : op.Reports) : Refreshes node claimable op := by
  cases op <;> trivial

theorem refreshing_keeps (c : Config) (wgPeer : PhysicalPeer) (now : Time) (old : PeerStatus) :
    ((refreshing c wgPeer).apply now old).isConnected = old.isConnected ∧
      ((refreshing c wgPeer).apply now old).ownerNodeId = old.ownerNodeId := by
  simp only [refreshing, forcePingable]
  split <;> exact ⟨rfl, rfl⟩

/-- The peers that are refreshed may be claimed. -/
theorem sound_refreshPeers {wgPeers : List PhysicalPeer} (known : List PeerIdentifier)
    (claimable : ∀ wgPeer ∈ wgPeers, K wgPeer.identifier)
    (never : P → ∀ wgPeer ∈ wgPeers, wgPeer.identifier ≠ id)
    (during : During i cache interfaces K P s) :
    (contract cfg id).Sound (system cfg order) (guard cfg id) i
      (fun _ => During i cache interfaces K P) (refreshPeers (cfg i) known wgPeers) s := by
  have uses : (refreshPeers (cfg i) known wgPeers).Uses
      (Refreshes (nodeId cfg i) (wgPeers.map PhysicalPeer.identifier)) :=
    uses_refreshPeers (fun _ => refreshes_of_reports) (fun _ => trivial)
      (fun wgPeer listed => ⟨rfl, List.mem_map_of_mem listed⟩)
      (fun wgPeer => refreshing_keeps (cfg i) wgPeer) known
  refine sound_refreshes uses (fun x listed => ?_) (fun holds listed => ?_) during
  · obtain ⟨wgPeer, here, rfl⟩ := List.mem_map.mp listed
    exact claimable wgPeer here
  · obtain ⟨wgPeer, here, same⟩ := List.mem_map.mp listed
    exact never holds wgPeer here same

omit [DecidableEq ι] in
/-- An operation that is neither a claim nor an update for a refreshed peer. -/
theorem fits_of_others (marks : ∀ x f, op = .updatePeerStatus .disconnect x f → f = disconnecting)
    (claims : ∀ x owner f, op ≠ .claimPeerStatus x owner f)
    (refreshes : ∀ x f, op ≠ .updatePeerStatus .refresh x f) : Fits cfg id i s op :=
  ⟨fun x owner f same => absurd same (claims x owner f),
    fun x f same => absurd same (refreshes x f), marks⟩

/-- Who marks a peer does not track it any more. -/
theorem sound_markPeerDisconnected (x : PeerIdentifier) (during : During i cache interfaces K P s) :
    (contract cfg id).Sound (system cfg order) (guard cfg id) i
      (fun _ => During i cache interfaces (fun y => K y ∧ y ≠ x) P)
      (markPeerDisconnected (cfg i) x) s := by
  have filtered : ∀ tracked : List PeerIdentifier, (∀ y ∈ tracked, K y) →
      ∀ y ∈ tracked.filter (· ≠ x), K y ∧ y ≠ x := by
    intro tracked all y listed
    obtain ⟨before, other⟩ := List.mem_filter.mp listed
    exact ⟨all y before, by simpa using other⟩
  have ends : ∀ {u : State ι} {prog : StatsProgram Unit},
      prog.Uses (Refreshes (nodeId cfg i) []) →
      During i cache interfaces (fun y => K y ∧ y ≠ x) P u →
      (contract cfg id).Sound (system cfg order) (guard cfg id) i
        (fun _ => During i cache interfaces (fun y => K y ∧ y ≠ x) P) prog u :=
    fun uses during => sound_refreshes uses (fun _ none => absurd none List.not_mem_nil)
      (fun _ => List.not_mem_nil) during
  unfold markPeerDisconnected
  intro t o relies inv allowed
  have here := during.stable relies
  refine ⟨perform_keeps inv allowed (fun _ => fits_of_others (by simp) (by simp) (by simp))
    (fun _ => here.busy), ?_⟩
  have answered : ((system cfg order).exec i (.getPeer .disconnect x) o t).1 = _ := perform_answer
  cases answer : StatsOp.answer (cfg i) (t.devices i) o t.db (.getPeer .disconnect x) with
  | error err =>
    rw [answer] at answered
    rw [answered]
    refine ends trivial (here.perform fun tracked all => ?_)
    rw [answer]
    exact filtered tracked all
  | ok peer =>
    rw [answer] at answered
    rw [answered]
    have still : During i cache interfaces K P (perform cfg i (.getPeer .disconnect x) o t).2 := by
      refine here.perform fun tracked all => ?_
      rw [answer]
      exact all
    intro u o' relies' inv' allowed'
    have here' := still.stable relies'
    refine ⟨perform_keeps inv' allowed' (fun _ => fits_of_others ?_ (by simp) (by simp))
      (fun _ => here'.busy), ?_⟩
    · intro y f same
      cases same
      rfl
    · refine ends ?_ (here'.perform fun tracked all => filtered tracked all)
      dsimp only [Program.bind]
      split
      · trivial
      · exact uses_updatePeerMetrics (fun _ => refreshes_of_reports) ..

theorem sound_markPeersDisconnected (xs : List PeerIdentifier) {s : State ι}
    (inv : Invariant cfg id s) (during : During i cache interfaces K P s) :
    (contract cfg id).Sound (system cfg order) (guard cfg id) i
      (fun _ => During i cache interfaces (fun y => K y ∧ y ∉ xs) P)
      (markPeersDisconnected (cfg i) xs) s := by
  induction xs generalizing K s with
  | nil =>
    intro t relies _
    exact (during.stable relies).mono (fun y known => ⟨known, List.not_mem_nil⟩) (fun h => h)
  | cons x xs ih =>
    refine (sound_markPeerDisconnected x during).bind inv fun _ t inv' during' => ?_
    refine (ih inv' during').mono fun _ u _ marked => ?_
    refine marked.mono (fun y known => ⟨known.1.1, fun listed => ?_⟩) (fun h => h)
    rcases List.mem_cons.mp listed with same | later
    · exact known.1.2 same
    · exact known.2 later

theorem isActive_mono {now later : Time} (le : now ≤ later) {wgPeer : PhysicalPeer}
    (inactive : isActive now wgPeer = false) : isActive later wgPeer = false := by
  simp only [isActive, Time.after, Bool.and_eq_false_iff] at inactive ⊢
  rcases inactive with zero | old
  · exact .inl zero
  · have older : wgPeer.lastHandshake ≤ now - 2 * minute := by simpa using old
    exact .inr (decide_eq_false (Int.not_lt.mpr (older.trans (Int.sub_le_sub_right le _))))

/-- While it is quiet the peer is not among those that are taken for active. -/
theorem sound_filterActivePeers {wgPeers : List PhysicalPeer} {s : State ι}
    (during : During i cache interfaces K P s)
    (quiet : s.life i = .running → s.history.began i = true → ∀ wgPeer ∈ wgPeers,
      wgPeer.identifier = id → isActive (s.clock i) wgPeer = false) :
    (contract cfg id).Sound (system cfg order) (guard cfg id) i
      (fun active => During i cache interfaces K (P ∧ ∀ wgPeer ∈ active, wgPeer.identifier ≠ id))
      (filterActivePeers wgPeers) s := by
  unfold filterActivePeers
  split
  · rename_i empty
    intro t relies _
    refine (during.stable relies).mono (fun _ known => known) fun holds => ⟨holds, ?_⟩
    rw [List.isEmpty_iff.mp empty]
    exact fun wgPeer listed => absurd listed List.not_mem_nil
  · intro t o relies inv allowed
    have here := during.stable relies
    refine ⟨perform_keeps inv allowed (fun _ => fits_of_others (by simp) (by simp) (by simp))
      (fun _ => here.busy), ?_⟩
    have fetched : During i cache interfaces K
        (P ∧ ∀ wgPeer ∈ wgPeers.filter (isActive o.now), wgPeer.identifier ≠ id)
        (perform cfg i .timeNow o t).2 := by
      by_cases running : t.life i = .running
      · rw [perform_running running]
        refine ⟨here.born, here.busy, here.active, here.interfaces, fun live => ?_, fun _ began => ?_⟩
        · simpa [track] using here.tracked running
        · refine ⟨here.quiet running began, fun wgPeer listed same => ?_⟩
          obtain ⟨fetched, active⟩ := List.mem_filter.mp listed
          have was := quiet (relies.running during.born running) (relies.began began) wgPeer fetched
            same
          rw [← relies.clock] at was
          rw [isActive_mono (allowed.1 running).1 was] at active
          cases active
      · rw [Cluster.perform, if_neg running]
        exact ⟨here.born, here.busy, here.active, here.interfaces, fun live => absurd live running,
          fun live => absurd live running⟩
    intro u relies' _
    have answered : ((system cfg order).exec i .timeNow o t).1 = o.now := perform_answer
    rw [answered]
    exact fetched.stable relies'

/-- What a round for one interface makes of the active peers. -/
structure Round (id : PeerIdentifier) (iface : InterfaceIdentifier) (before after : ActivePeers)
    (fetched : Bool) : Prop where
  free : ∀ other, id ∉ before other → id ∉ after other
  here : fetched = true → id ∉ after iface

/-- The process knows no more interfaces than it did and this one. -/
def Within (ifaces : List InterfaceIdentifier) (before after : ActivePeers) : Prop :=
  ∀ other, after other ≠ [] → before other ≠ [] ∨ other ∈ ifaces

/-- Who is not marked is active. -/
theorem caches_round (o : MapOrder PeerIdentifier) {before : ActivePeers}
    {iface : InterfaceIdentifier} {current : List PeerIdentifier} {x : PeerIdentifier}
    (known : Caches before x ∨ x ∈ current)
    (unmarked : x ∉ (o.order (before iface)).filter (· ∉ current)) :
    Caches (Function.update before iface current) x := by
  have here : x ∈ current → Caches (Function.update before iface current) x :=
    fun active => ⟨iface, by simpa using active⟩
  rcases known with ⟨other, cached⟩ | active
  · by_cases same : other = iface
    · subst same
      by_contra absent
      have inactive : x ∉ current := fun active => absent (here active)
      exact unmarked (List.mem_filter.mpr
        ⟨(o.perm (before other)).mem_iff.mpr cached, by simpa using inactive⟩)
    · exact ⟨other, by simpa [Function.update_of_ne same] using cached⟩
  · exact here active

theorem sound_collectInterface (before : ActivePeers) (iface : Interface) {s : State ι}
    (during : During i cache interfaces (Caches before) P s) :
    (contract cfg id).Sound (system cfg order) (guard cfg id) i
      (fun collected t => During i cache interfaces (Caches collected.1)
          (P ∧ Round id iface.identifier before collected.1 collected.2) t ∧
        Within [iface.identifier] before collected.1)
      (collectInterface (cfg i) (order i) before iface) s := by
  unfold collectInterface
  intro t o relies inv' allowed
  have here := during.stable relies
  refine ⟨perform_keeps inv' allowed (fun _ => fits_of_others (by simp) (by simp) (by simp))
    (fun _ => here.busy), ?_⟩
  have answered : ((system cfg order).exec i (.getPeers iface) o t).1 = _ := perform_answer
  have still : During i cache interfaces (Caches before) P
      (perform cfg i (.getPeers iface) o t).2 := here.perform fun tracked all => all
  cases answer : StatsOp.answer (cfg i) (t.devices i) o t.db (.getPeers iface) with
  | error err =>
    rw [answer] at answered
    rw [answered]
    intro u relies' _
    refine ⟨(still.stable relies').mono (fun _ known => known) fun holds => ⟨holds, ?_⟩, ?_⟩
    · exact ⟨fun _ free => free, fun never => by cases never⟩
    · exact fun other some => .inl some
  | ok wgPeers =>
    rw [answer] at answered
    rw [answered]
    have inv₁ := (perform_keeps inv' allowed (fun _ => fits_of_others (by simp) (by simp) (by simp))
      (fun _ => here.busy)).1
    have quiet : (perform cfg i (.getPeers iface) o t).2.life i = .running →
        (perform cfg i (.getPeers iface) o t).2.history.began i = true → ∀ wgPeer ∈ wgPeers,
          wgPeer.identifier = id →
            isActive ((perform cfg i (.getPeers iface) o t).2.clock i) wgPeer = false := by
      by_cases running : t.life i = .running
      · rw [perform_running running]
        intro _ began wgPeer listed same
        have shown : wgPeers = t.devices i iface.identifier := by
          simp only [StatsOp.answer] at answer
          split at answer
          · cases answer
          · exact (Except.ok.inj answer).symm
        simp only [Function.update_self]
        exact (allowed.1 running).2 (inv'.began i began) wgPeer (shown ▸ listed) same
      · rw [Cluster.perform, if_neg running]
        exact fun live => absurd live running
    refine (sound_filterActivePeers still quiet).bind inv₁ fun active u inv₂ filtered => ?_
    let current := (active.map PhysicalPeer.identifier).dedup
    have listed : ∀ x, x ∈ current ↔ ∃ wgPeer ∈ active, wgPeer.identifier = x := by
      intro x
      simp only [current, List.mem_dedup, List.mem_map]
    have known := filtered.mono (fun x cached => (.inl cached : Caches before x ∨ x ∈ current))
      (fun holds => holds)
    have claimable : ∀ wgPeer ∈ active, Caches before wgPeer.identifier ∨
        wgPeer.identifier ∈ current := fun wgPeer here => .inr ((listed _).mpr ⟨wgPeer, here, rfl⟩)
    refine (sound_refreshPeers (before iface.identifier) claimable (fun holds => holds.2) known).bind
      inv₂ fun _ v inv₃ refreshed => ?_
    refine (sound_markPeersDisconnected _ inv₃ refreshed).bind inv₃ fun _ w _ marked => ?_
    intro z relies' _
    refine ⟨(marked.stable relies').mono (fun x tracks => ?_) fun holds => ⟨holds.1, ?_⟩, ?_⟩
    · exact caches_round (order i) tracks.1 tracks.2
    · have free : id ∉ current := by
        rw [listed]
        rintro ⟨wgPeer, here, same⟩
        exact holds.2 wgPeer here same
      refine ⟨fun other absent => ?_, fun _ => ?_⟩
      · by_cases same : other = iface.identifier
        · simp only [same, Function.update_self]
          exact free
        · simpa [Function.update_of_ne same] using absent
      · simp only [Function.update_self]
        exact free
    · intro other some
      by_cases same : other = iface.identifier
      · exact .inr (by simp [same])
      · exact .inl (by simpa [Function.update_of_ne same] using some)

/-- What a cycle makes of the active peers. -/
structure Cycle (id : PeerIdentifier) (ifaces : List InterfaceIdentifier)
    (before after : ActivePeers) (fetched : Bool) : Prop where
  free : ∀ other, id ∉ before other → id ∉ after other
  here : fetched = true → ∀ iface ∈ ifaces, id ∉ after iface

theorem sound_collectInterfaces (before : ActivePeers) (ifaces : List Interface) {s : State ι}
    (inv : Invariant cfg id s) (during : During i cache interfaces (Caches before) P s) :
    (contract cfg id).Sound (system cfg order) (guard cfg id) i
      (fun collected t => During i cache interfaces (Caches collected.1)
          (P ∧ Cycle id (ifaces.map Interface.identifier) before collected.1 collected.2) t ∧
        Within (ifaces.map Interface.identifier) before collected.1)
      (collectInterfaces (cfg i) (order i) before ifaces) s := by
  induction ifaces generalizing before P s with
  | nil =>
    intro t relies _
    refine ⟨(during.stable relies).mono (fun _ known => known) fun holds => ⟨holds, ?_⟩, ?_⟩
    · exact ⟨fun _ free => free, fun _ iface none => absurd none List.not_mem_nil⟩
    · exact fun other some => .inl some
  | cons iface ifaces ih =>
    refine (sound_collectInterface before iface during).bind inv fun first t inv' round => ?_
    refine (ih first.1 inv' round.1).bind inv' fun rest u _ cycle => ?_
    intro v relies _
    refine ⟨(cycle.1.stable relies).mono (fun _ known => known) fun holds => ⟨holds.1.1, ?_⟩, ?_⟩
    · obtain ⟨⟨_, first⟩, rest⟩ := holds
      refine ⟨fun other free => rest.free other (first.free other free), fun fetched => ?_⟩
      obtain ⟨here, later⟩ := Bool.and_eq_true_iff.mp fetched
      intro other listed
      rcases List.mem_cons.mp listed with rfl | listed
      · exact rest.free _ (first.here here)
      · exact rest.here later other listed
    · intro other some
      rcases cycle.2 other some with before | listed
      · rcases round.2 other before with before | same
        · exact .inl before
        · exact .inr (List.mem_cons.mpr (.inl (List.mem_singleton.mp same)))
      · exact .inr (List.mem_cons_of_mem _ listed)

/-- The end of a cycle. -/
theorem finish_keeps {collected : ActivePeers × Bool} (inv : Invariant cfg id s)
    (during : During i cache interfaces (Caches collected.1)
      (Cycle id (interfaces.rows.map Interface.identifier) cache collected.1 collected.2) s)
    (within : Within (interfaces.rows.map Interface.identifier) cache collected.1) :
    (contract cfg id).Keeps i s (Cluster.finish i collected s) := by
  by_cases running : s.life i = .running
  swap
  · rw [Cluster.finish, if_neg running]
    exact ⟨inv, fun j _ => (contract cfg id).refl j s⟩
  have others : ∀ {α : Type} (f : ι → α) (v : α) {j : ι}, j ≠ i → Function.update f i v j = f j :=
    fun f v j ne => Function.update_of_ne ne v f
  have known : ∀ other, collected.1 other ≠ [] → other ∈ interfaces.rows.map Interface.identifier := by
    intro other some
    rcases within other some with before | listed
    · rw [← during.active] at before
      exact during.interfaces ▸ inv.listed i other before
    · exact listed
  rw [Cluster.finish, if_pos running]
  refine ⟨⟨inv.whole, inv.tracked, ?_, ?_, ?_, ?_, ?_⟩, fun j ne => ?_⟩
  · intro j live idle
    by_cases same : j = i
    · subst same
      simp only [Function.update_self]
      exact during.tracked running
    · simp only [others _ _ same] at idle ⊢
      exact inv.cached j live idle
  · intro j iface some
    by_cases same : j = i
    · subst same
      simp only [Function.update_self] at some
      exact during.interfaces ▸ known iface some
    · simp only [others _ _ same] at some
      exact inv.listed j iface some
  · intro j began
    by_cases same : j = i
    · simp [same] at began
    · simp only [others _ _ same] at began
      exact inv.began j began
  · intro j live clean
    by_cases same : j = i
    swap
    · simp only [others _ _ same] at clean ⊢
      exact inv.completed j live clean
    subst same
    simp only [Function.update_self] at clean ⊢
    have uncached : s.history.began j = true → ¬ Caches collected.1 id := by
      intro began
      have cycle := during.quiet running began
      rcases Bool.or_eq_true_iff.mp clean with before | now
      · have absent := (inv.completed j running before).2.2.1
        rw [during.active] at absent
        rintro ⟨other, here⟩
        exact cycle.free other (fun was => absent ⟨other, was⟩) here
      · rintro ⟨other, here⟩
        have listed := known other (List.ne_nil_of_mem here)
        exact cycle.here (Bool.and_eq_true_iff.mp now).2 other listed here
    have began : s.history.began j = true := by
      rcases Bool.or_eq_true_iff.mp clean with before | now
      · exact (inv.completed j running before).2.2.2 during.busy
      · exact (Bool.and_eq_true_iff.mp now).1
    refine ⟨inv.began j began, fun tracks => ?_, uncached began, fun never => by cases never⟩
    exact uncached began (during.tracked running id tracks)
  · intro j unborn
    have same : j ≠ i := by
      rintro rfl
      exact absurd (running.symm.trans unborn) (by decide)
    simp only [others _ _ same]
    exact inv.unborn j unborn
  · exact ⟨fun h => h, fun _ h => h, rfl, others _ _ ne, rfl, rfl, others _ _ ne, fun h => by
      simpa only [others _ _ ne] using h⟩

theorem sound_collectPeerData {s : State ι}
    (during : During i cache interfaces (Caches cache) True s) :
    (contract cfg id).Sound (system cfg order) (guard cfg id) i
      ((contract cfg id).Finishes (system cfg order) i)
      (collectPeerData (cfg i) (order i) cache) s := by
  unfold collectPeerData
  intro t o relies inv' allowed
  have here := during.stable relies
  have keeps := perform_keeps inv' allowed
    (fun _ => fits_of_others (by simp) (by simp) (by simp)) (fun _ => here.busy)
  refine ⟨keeps, ?_⟩
  have answered : ((system cfg order).exec i .getAllInterfaces o t).1 = _ := perform_answer
  have still : During i cache interfaces (Caches cache) True
      (perform cfg i .getAllInterfaces o t).2 := here.perform fun tracked all => all
  cases answer : StatsOp.answer (cfg i) (t.devices i) o t.db .getAllInterfaces with
  | error err =>
    rw [answer] at answered
    rw [answered]
    intro u relies' inv''
    refine finish_keeps inv'' ((still.stable relies').mono (fun _ known => known) fun _ => ?_) ?_
    · exact ⟨fun _ free => free, fun never => by cases never⟩
    · exact fun other some => .inl some
  | ok ifaces =>
    rw [answer] at answered
    rw [answered]
    have all : ifaces = interfaces.rows := by
      simp only [StatsOp.answer] at answer
      split at answer
      · cases answer
      · rw [← Except.ok.inj answer, ← here.interfaces]
        rfl
    subst all
    refine (sound_collectInterfaces cache interfaces.rows keeps.1 still).mono fun collected u inv'' ends => ?_
    exact finish_keeps inv'' (ends.1.mono (fun _ known => known) fun holds => holds.2) ends.2

theorem start_keeps (inv : Invariant cfg id s) (running : s.life i = .running) :
    (contract cfg id).Keeps i s { s with
      history := { s.history with
        busy := Function.update s.history.busy i true
        began := Function.update s.history.began i s.history.quiet } } := by
  have others : ∀ (f : ι → Bool) (v : Bool) {j : ι}, j ≠ i → Function.update f i v j = f j :=
    fun f v j ne => Function.update_of_ne ne v f
  refine ⟨⟨inv.whole, inv.tracked, ?_, inv.listed, ?_, ?_, ?_⟩, fun j ne => ?_⟩
  · intro j live idle
    by_cases same : j = i
    · simp [same] at idle
    · simp only [others _ _ same] at idle
      exact inv.cached j live idle
  · intro j began
    by_cases same : j = i
    · simpa [same] using began
    · simp only [others _ _ same] at began
      exact inv.began j began
  · intro j live clean
    obtain ⟨quiet, untracked, uncached, began⟩ := inv.completed j live clean
    refine ⟨quiet, untracked, uncached, fun busy => ?_⟩
    by_cases same : j = i
    · simpa [same] using quiet
    · simp only [others _ _ same] at busy ⊢
      exact began busy
  · intro j unborn
    have same : j ≠ i := by
      rintro rfl
      exact absurd (running.symm.trans unborn) (by decide)
    simp only [others _ _ same]
    exact inv.unborn j unborn
  · exact ⟨fun h => h, fun _ h => h, rfl, rfl, rfl, rfl, others _ _ ne, fun h => by
      simpa only [others _ _ ne] using h⟩

theorem upheld : Contract.Upheld (system cfg order) (contract cfg id) (guard cfg id) where
  env := fun _ _ _ inv allowed step => env_keeps inv allowed step
  start := by
    intro i call s prog t inv idle step
    simp only [system, Cluster.begin] at step
    split at step
    swap
    · cases step
    rename_i running
    obtain ⟨rfl, rfl⟩ := Prod.mk.inj (Option.some.inj step)
    have during : During i (s.activeConnectedPeers i) s.db.interfaces
        (Caches (s.activeConnectedPeers i)) True { s with
          history := { s.history with
            busy := Function.update s.history.busy i true
            began := Function.update s.history.began i s.history.quiet } } := by
      refine ⟨?_, Function.update_self .., rfl, rfl, fun _ => ?_, fun _ _ => trivial⟩
      · simp [running]
      · exact inv.cached i running (idle running)
    exact ⟨start_keeps inv running, sound_collectPeerData during⟩

/-- A process that is not in a cycle is not busy. -/
structure Idle (p : ClusterPool ι) : Prop where
  running : ∀ i, p.thread i = none → p.shared.life i = .running → p.shared.history.busy i = false
  unborn : ∀ i, p.shared.life i = .unborn → p.shared.history.busy i = false

theorem idle_env {e : Env ι} {s t : State ι} {thread : ι → Option (StatsProgram (ActivePeers × Bool))}
    (idle : Idle ⟨s, thread⟩) (step : e.apply s = some t) : Idle ⟨t, thread⟩ := by
  cases e with
  | launch i =>
    simp only [Env.apply] at step
    split at step
    · rename_i unborn
      rw [← Option.some.inj step]
      refine ⟨fun j none live => ?_, fun j still => ?_⟩
      · by_cases same : j = i
        · exact same ▸ idle.unborn i unborn
        · exact idle.running j none (by simpa [Function.update_of_ne same] using live)
      · by_cases same : j = i
        · simp [same] at still
        · exact idle.unborn j (by simpa [Function.update_of_ne same] using still)
    · cases step
  | stop i =>
    simp only [Env.apply] at step
    split at step
    · rw [← Option.some.inj step]
      refine ⟨fun j none live => ?_, fun j still => ?_⟩
      · by_cases same : j = i
        · simp [same] at live
        · exact idle.running j none (by simpa [Function.update_of_ne same] using live)
      · by_cases same : j = i
        · simp [same] at still
        · exact idle.unborn j (by simpa [Function.update_of_ne same] using still)
    · cases step
  | _ =>
    rw [← Option.some.inj step]
    exact ⟨idle.running, idle.unborn⟩

theorem idle_next {p q : ClusterPool ι} {turn : ClusterTurn ι} (idle : Idle p)
    (step : (system cfg order).next p turn = some q) : Idle q := by
  cases turn with
  | env e =>
    obtain ⟨t, changed, rfl⟩ := Option.map_eq_some_iff.mp step
    exact idle_env idle changed
  | start i call =>
    simp only [next] at step
    split at step
    · cases step
    obtain ⟨⟨prog, t⟩, started, rfl⟩ := Option.map_eq_some_iff.mp step
    simp only [system, Cluster.begin] at started
    split at started
    swap
    · cases started
    rename_i running
    obtain ⟨rfl, rfl⟩ := Prod.mk.inj (Option.some.inj started)
    refine ⟨fun j none live => ?_, fun j unborn => ?_⟩
    · have other : j ≠ i := by
        rintro rfl
        simp at none
      simp only [Function.update_of_ne other] at none ⊢
      exact idle.running j none live
    · have other : j ≠ i := by
        rintro rfl
        exact absurd (running.symm.trans unborn) (by decide)
      simpa only [Function.update_of_ne other] using idle.unborn j unborn
  | step i o =>
    simp only [next] at step
    split at step
    · cases step
    · rename_i collected here
      rw [← Option.some.inj step]
      simp only [system, Cluster.finish]
      by_cases running : p.shared.life i = .running
      · rw [if_pos running]
        refine ⟨fun j none live => ?_, fun j unborn => ?_⟩
        · by_cases same : j = i
          · simp [same]
          · simp only [Function.update_of_ne same] at none ⊢
            exact idle.running j none live
        · have other : j ≠ i := by
            rintro rfl
            exact absurd (running.symm.trans unborn) (by decide)
          simpa only [Function.update_of_ne other] using idle.unborn j unborn
      · rw [if_neg running]
        refine ⟨fun j none live => ?_, idle.unborn⟩
        have other : j ≠ i := fun same => running (same ▸ live)
        exact idle.running j (by simpa [Function.update_of_ne other] using none) live
    · rename_i op rest here
      rw [← Option.some.inj step]
      have kept : (perform cfg i op o p.shared).2.life = p.shared.life ∧
          (perform cfg i op o p.shared).2.history.busy = p.shared.history.busy := by
        unfold perform
        split <;> exact ⟨rfl, rfl⟩
      refine ⟨fun j none live => ?_, fun j unborn => ?_⟩
      · have other : j ≠ i := by
          rintro rfl
          simp at none
        simp only [Function.update_of_ne other] at none
        simp only [system, kept.1] at live
        simp only [system, kept.2]
        exact idle.running j none live
      · simp only [system, kept.1] at unborn
        simp only [system, kept.2]
        exact idle.unborn j unborn

theorem idle_start {p q : ClusterPool ι} {i : ι} (idle : Idle p)
    (step : (system cfg order).next p (.start i ()) = some q) (running : p.shared.life i = .running) :
    p.shared.history.busy i = false := by
  simp only [next] at step
  split at step
  · cases step
  · rename_i none
    exact idle.running i none running

/-- A peer that no device of a running process shows with a recent handshake is stored as
disconnected, once each of these processes has completed a cycle, if no process stopped
that owned a connected peer and the statuses of such peers could be marked. -/
theorem guarded_run_notStuck {db : Db} {devices : ι → InterfaceIdentifier → List PhysicalPeer}
    (offline : ∀ row ∈ db.peerStatuses.rows, row.isConnected = false) (whole : Orphans.NoOrphans db)
    {turns : List (ClusterTurn ι)} {q : ClusterPool ι}
    (premised : Guarded (system cfg order).next (premises id).turn (idle (initial db devices)) turns)
    (guarded : Guarded (system cfg order).next (condition cfg).turn (idle (initial db devices)) turns)
    (run : runFrom (system cfg order).next (idle (initial db devices)) turns = some q)
    (completed : ∀ i, q.shared.life i = .running → q.shared.history.completed i = true) :
    ∀ row, q.shared.db.peerStatuses.find id = some row → row.isConnected = false := by
  have initially : Invariant cfg id (initial db devices : State ι) := by
    refine ⟨whole, fun row listed online => ?_, fun i live => ?_, fun i iface some => absurd rfl some,
      fun i never => ?_, fun i live => ?_, fun i _ => ⟨rfl, fun _ => rfl, rfl, rfl⟩⟩
    · exact absurd (online.symm.trans (offline row listed)) (by decide)
    · cases live
    · cases never
    · cases live
  have started : Guarded (system cfg order).next (fun p turn => ∀ i, turn = .start i () →
      p.shared.life i = .running → p.shared.history.busy i = false)
      (idle (initial db devices)) turns := by
    refine guarded_of_run (fun p turn q idle step => ?_) run
      (⟨fun _ _ _ => rfl, fun _ _ => rfl⟩ : Idle (idle (initial db devices)))
    refine ⟨fun i same running => ?_, idle_next idle step⟩
    exact idle_start idle (same ▸ step) running
  have both : Guarded (system cfg order).next (guard cfg id).turn (idle (initial db devices))
      turns := by
    refine ((premised.and guarded).and started).mono fun p turn holds => ?_
    cases turn with
    | env e => exact holds.1.2
    | start i call => exact holds.2 i rfl
    | step i o => exact fun op rest here => ⟨holds.1.1 op rest here, holds.1.2 op rest here⟩
  have inv := Contract.preserved upheld initially both run
  intro row found
  by_contra online
  rw [Bool.not_eq_false] at online
  obtain ⟨i, live, _, tracks⟩ := inv.tracked row (Table.mem_of_find found) online
  rw [Table.key_of_find found] at tracks
  exact (inv.completed i live (completed i live)).2.1 tracks

instance (s : State ι) (e : Env ι) : Decidable ((premises id).env s e) := isTrue trivial

instance (s : State ι) (i : ι) (call : Unit) : Decidable ((premises id).start s i call) :=
  isTrue trivial

instance (s : State ι) (i : ι) (o : Occasion) :
    ∀ op : StatsOp, Decidable ((premises id).step s i op o)
  | .getPeers iface => inferInstanceAs (Decidable (s.life i = .running → s.clock i ≤ o.now ∧
      (s.history.quiet = true → ∀ wgPeer ∈ s.devices i iface.identifier,
        wgPeer.identifier = id → isActive o.now wgPeer = false)))
  | .timeNow | .getAllInterfaces | .getPeer .. | .updatePeerStatus .. | .claimPeerStatus ..
  | .updatePeerMetricsValues .. | .removePeerMetricsByID _ | .registerPeerMetrics _ | .publish .. =>
    inferInstanceAs (Decidable (s.life i = .running → s.clock i ≤ o.now ∧ True))

/-- Both processes are of the same node, `true` after a restart. -/
def oneNode (_ : Bool) : Config := StatusOwnership.nodeConfig "node-a"

def sampleSystem : System Bool (Env Bool) Unit StatsOp StatsOp.Res Occasion (ActivePeers × Bool)
    (State Bool) :=
  system oneNode fun _ => MapOrder.listed

def connects : List (ClusterTurn Bool) :=
  [.env (.launch false), handshake false hour] ++ cycle false 8 (hour + minute)

/-- The peer is gone, and the process that knows it completes a cycle. -/
def leaves : List (ClusterTurn Bool) :=
  connects ++ .env (.quiet true) :: cycle false 6 (2 * hour)

/-- The node restarts before it finds that the peer is gone. -/
def restarts : List (ClusterTurn Bool) :=
  connects ++ [.env (.stop false), .env (.launch true), handshake true hour, .env (.quiet true)] ++
    cycle true 3 (2 * hour)

/-- Whether the peer is stored as connected, and whether all have completed a cycle. -/
def outcome (p : ClusterPool Bool) : Option Bool × Bool :=
  ((p.shared.db.peerStatuses.find "p").map PeerStatus.isConnected,
    decide (∀ i, p.shared.life i = .running → p.shared.history.completed i = true))

theorem sampleDb_offline : (∀ row ∈ sampleDb.peerStatuses.rows, row.isConnected = false) ∧
    Orphans.NoOrphans sampleDb :=
  ⟨by decide +kernel, by decide +kernel, by decide +kernel⟩

theorem leaves_notStuck : ∃ q, runFrom sampleSystem.next (idle (initial sampleDb fun _ _ => []))
    leaves = some q ∧ ∃ row, q.shared.db.peerStatuses.find "p" = some row ∧
      row.isConnected = false := by
  have evaluated : (runFrom sampleSystem.next (idle (initial sampleDb fun _ _ => [])) leaves).map
      (fun q => outcome q) = some (some false, true) := by
    decide +kernel
  have premised : Guarded sampleSystem.next (premises "p").turn
      (idle (initial sampleDb fun _ _ => [])) leaves := by
    decide +kernel
  have guarded : Guarded sampleSystem.next (condition oneNode).turn
      (idle (initial sampleDb fun _ _ => [])) leaves := by
    have smooth : ∀ (i : Bool) (now : Time) (p : ClusterPool Bool),
        (condition oneNode).turn p (.step i ⟨now, now, none, []⟩) :=
      fun i now p op rest _ _ failed => absurd rfl failed
    refine guarded_of_mem (fun turn listed p => ?_) _
    simp only [leaves, connects, handshake, cycle, List.cons_append, List.nil_append,
      List.mem_cons, List.mem_append, List.mem_replicate] at listed
    rcases listed with rfl | rfl | rfl | ⟨-, rfl⟩ | rfl | rfl | ⟨-, rfl⟩
    · trivial
    · trivial
    · trivial
    · exact smooth false _ p
    · trivial
    · trivial
    · exact smooth false _ p
  obtain ⟨q, run, same⟩ := Option.map_eq_some_iff.mp evaluated
  obtain ⟨status, completed⟩ := Prod.mk.inj same
  obtain ⟨row, found, _⟩ := Option.map_eq_some_iff.mp status
  exact ⟨q, run, row, found, guarded_run_notStuck sampleDb_offline.1 sampleDb_offline.2 premised
    guarded run (of_decide_eq_true completed) row found⟩

/-- After a restart nobody marks the peer any more. -/
theorem restarted_stuck : ∃ q, runFrom sampleSystem.next (idle (initial sampleDb fun _ _ => []))
    restarts = some q ∧
      Guarded sampleSystem.next (premises "p").turn (idle (initial sampleDb fun _ _ => [])) restarts ∧
      (∀ i, q.shared.life i = .running → q.shared.history.completed i = true) ∧
      ∃ row, q.shared.db.peerStatuses.find "p" = some row ∧ row.isConnected = true := by
  have evaluated : (runFrom sampleSystem.next (idle (initial sampleDb fun _ _ => [])) restarts).map
      (fun q => outcome q) = some (some true, true) := by
    decide +kernel
  have premised : Guarded sampleSystem.next (premises "p").turn
      (idle (initial sampleDb fun _ _ => [])) restarts := by
    decide +kernel
  obtain ⟨q, run, same⟩ := Option.map_eq_some_iff.mp evaluated
  obtain ⟨status, completed⟩ := Prod.mk.inj same
  obtain ⟨row, found, online⟩ := Option.map_eq_some_iff.mp status
  exact ⟨q, run, premised, of_decide_eq_true completed, row, found, online⟩

end WgPortal.WireGuard.StuckStatuses
