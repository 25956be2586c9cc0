import WgPortal.Library.Interleaving
import WgPortal.WireGuard.Sync

/-! Full syncs while other nodes write peers. Any number of syncs run operation
by operation, each on the devices of its node, with one database. The state
records what each sync has loaded and still has to write. -/

namespace WgPortal.WireGuard.SyncConcurrent

open Domain Library Adapters App Config WgController System
open ManagerProgram (issue)

variable {ι ν : Type} [DecidableEq ι] [DecidableEq ν] {w : Wgtypes}

/-- `pending` are loaded peers that are to be written, `steps` the database
before and after each operation of a sync. -/
structure State (ι ν : Type) (w : Wgtypes) where
  db : Db
  devices : ν → Devices w
  pending : List (ι × Peer)
  steps : List (Db × Db)

/-- What others do between two operations of the syncs. -/
inductive Env (ν : Type) (w : Wgtypes) where
  | savePeer (userId : UserIdentifier) (now : Time) (id : PeerIdentifier) (peer : Peer)
  | deletePeer (id : PeerIdentifier)
  | setOthers (interfaces : Table Interface.identifier) (peerStatuses : Table PeerStatus.peerId)
  | setDevices (node : ν) (devices : Devices w)

def Env.apply : Env ν w → State ι ν w → State ι ν w
  | .savePeer userId now id peer, s => { s with db := s.db.commitPeer userId now id peer }
  | .deletePeer id, s => { s with db := s.db.deletePeer id }
  | .setOthers interfaces peerStatuses, s =>
    { s with db := { s.db with interfaces := interfaces, peerStatuses := peerStatuses } }
  | .setDevices node devices, s => { s with devices := Function.update s.devices node devices }

/-- `noFanout` is a flag in the context of the call. -/
structure Call where
  order : MapOrder Peer
  ui : ContextUserInfo
  noFanout : Bool

/-- What `i` has still to write after an operation: the enabled peers it loads,
without those it skips and those it has written. A failure ends the batch. -/
def record (i : ι) : (op : ManagerOp) → op.Res → List (ι × Peer) → List (ι × Peer)
  | .repo (.getInterfacePeers _), .ok peers, pending =>
    pending.filter (·.1 ≠ i) ++ (peers.filter fun p => !p.isDisabled).map fun p => (i, p)
  | .getPeers _, .ok listed, pending =>
    pending.filter fun e => e.1 ≠ i || !skips (listed.map listedPeer) e.2
  | .repo (.commitPeer _ _ peer), .ok _, pending =>
    pending.filter fun e => e.1 ≠ i || e.2.identifier ≠ peer.identifier
  | .repo _, .error _, pending => pending.filter (·.1 ≠ i)
  | .getPeers _, .error _, pending => pending.filter (·.1 ≠ i)
  | .savePeer .., .error _, pending => pending.filter (·.1 ≠ i)
  | _, _, pending => pending

variable (client : Client w) (host : ι → ν) (m : ι → Manager)

def exec (i : ι) (op : ManagerOp) (c : Circumstance) (s : State ι ν w) : op.Res × State ι ν w :=
  let answer := op.exec client c ⟨s.db, s.devices (host i), []⟩
  (answer.1,
    { db := answer.2.db
      devices := Function.update s.devices (host i) answer.2.devices
      pending := record i op answer.1 s.pending
      steps := s.steps ++ [(s.db, answer.2.db)] })

def system : System ι (Env ν w) Call ManagerOp ManagerOp.Res Circumstance (ℕ × Option Error)
    (State ι ν w) where
  exec := exec client host
  env := fun e s => some (e.apply s)
  start := fun i call s => some ((m i).syncAllPeersFromDB call.order call.ui call.noFanout, s)
  finish := fun i _ s => { s with pending := s.pending.filter (·.1 ≠ i) }

/-- A peer without the columns that say who wrote it last and when. -/
def content (p : Peer) : Peer := { p with base := { p.base with updatedBy := "", updatedAt := 0 } }

/-- What is stored for an identifier. -/
def stored (db : Db) (id : PeerIdentifier) : Option Peer := (db.peer id).map content

/-- No operation of a sync creates, removes or changes a stored peer. -/
def ReadOnly (s : State ι ν w) : Prop :=
  ∀ step ∈ s.steps, ∀ id, stored step.2 id = stored step.1 id

/-- No peer is deleted or changed by another node while a sync has it loaded and
not written yet. -/
def guard : Guard ι (Env ν w) Call ManagerOp Circumstance (State ι ν w) where
  env := fun s e => ∀ entry ∈ s.pending,
    stored (e.apply s).db entry.2.identifier = stored s.db entry.2.identifier
  start := fun _ _ _ => True
  step := fun _ _ _ _ => True

instance (s : State ι ν w) (e : Env ν w) : Decidable (guard.env s e) :=
  inferInstanceAs (Decidable (∀ entry ∈ s.pending, _ = _))

instance (s : State ι ν w) (i : ι) (call : Call) :
    Decidable (guard.start s i call) := isTrue trivial

instance (s : State ι ν w) (i : ι) (op : ManagerOp) (c : Circumstance) :
    Decidable (guard.step s i op c) := isTrue trivial

/-- Pending peers are stored as they were loaded. -/
def Current (s : State ι ν w) : Prop :=
  ∀ entry ∈ s.pending, stored s.db entry.2.identifier = some (content entry.2)

/-- A sync relies on its own pending peers. -/
def contract : Contract ι (State ι ν w) where
  inv := fun s => Current s ∧ ReadOnly s
  rely := fun i s t => ∀ p, (i, p) ∈ t.pending ↔ (i, p) ∈ s.pending
  refl := fun _ _ _ => Iff.rfl
  trans := fun _ _ _ _ first second p => (second p).trans (first p)

variable {client host m}

theorem stored_of_listed {db : Db} {iface : InterfaceIdentifier} {p : Peer}
    (listed : p ∈ db.getInterfacePeers iface) : stored db p.identifier = some (content p) :=
  congrArg (Option.map content) (Db.peer_of_mem_getInterfacePeers listed)

/-- A commit that leaves the content of its peer alone changes nothing. -/
theorem stored_commitPeer {db : Db} {p : Peer} (same : stored db p.identifier = some (content p))
    (ui : UserIdentifier) (now : Time) (id other : PeerIdentifier) :
    stored (db.commitPeer ui now id p) other = stored db other := by
  by_cases here : other = p.identifier
  · have nodup : p.interface.addresses.Nodup := by
      obtain ⟨peer, found, equal⟩ := Option.map_eq_some_iff.mp same
      have addresses : peer.interface.addresses = p.interface.addresses :=
        congrArg (·.interface.addresses) equal
      exact addresses ▸ Db.nodup_addresses_of_peer found
    rw [here, same, stored, Db.peer_commitPeer_self db ui now id nodup]
    rfl
  · rw [stored, Db.peer_commitPeer_of_ne db ui now id p here, stored]

/-- The other syncs are left alone. -/
theorem mem_record_of_ne {i j : ι} (ne : j ≠ i) (op : ManagerOp) (answer : op.Res)
    (pending : List (ι × Peer)) (p : Peer) :
    (j, p) ∈ record i op answer pending ↔ (j, p) ∈ pending := by
  unfold record
  split <;> simp [ne, Ne.symm ne]

/-- The operations that leave the stored peers alone. -/
def Spares : ManagerOp → Prop
  | .repo (.commitPeer ..) | .repo (.deletePeer _) => False
  | _ => True

theorem exec_peer {op : ManagerOp} (spares : Spares op) (c : Circumstance) (world : World w)
    (id : PeerIdentifier) : (op.exec client c world).2.db.peer id = world.db.peer id := by
  cases op with
  | repo op =>
    cases fault : c.fault with
    | some err => simp only [ManagerOp.exec, RepoOp.exec, fault]
    | none =>
      cases op with
      | commitPeer | deletePeer => cases spares
      | _ => simp only [ManagerOp.exec, RepoOp.exec, RepoOp.apply, fault] <;> rfl
  | savePeer | deletePeer =>
    simp only [ManagerOp.exec]
    split
    · rfl
    · split <;> rfl
  | lock | timeNow | publish => rfl
  | getPeers | newFreshKeypair | newPreSharedKey =>
    cases fault : c.fault <;> simp only [ManagerOp.exec, fault]

/-- The peers that an operation has loaded. -/
def loaded : (op : ManagerOp) → op.Res → List Peer
  | .repo (.getInterfacePeers _), .ok peers => peers
  | _, _ => []

theorem mem_record {i : ι} {op : ManagerOp} {answer : op.Res} {pending : List (ι × Peer)}
    {entry : ι × Peer} (later : entry ∈ record i op answer pending) :
    entry ∈ pending ∨ entry.2 ∈ loaded op answer := by
  unfold record at later
  split at later
  · rcases List.mem_append.mp later with before | now
    · exact .inl (List.mem_filter.mp before).1
    · obtain ⟨p, hp, rfl⟩ := List.mem_map.mp now
      exact .inr (List.mem_filter.mp hp).1
  · exact .inl (List.mem_filter.mp later).1
  · exact .inl (List.mem_filter.mp later).1
  · exact .inl (List.mem_filter.mp later).1
  · exact .inl (List.mem_filter.mp later).1
  · exact .inl (List.mem_filter.mp later).1
  · exact .inl later

theorem stored_of_loaded {op : ManagerOp} {c : Circumstance} {world : World w} {p : Peer}
    (listed : p ∈ loaded op (op.exec client c world).1) :
    stored world.db p.identifier = some (content p) := by
  cases op with
  | repo op =>
    cases op with
    | getInterfacePeers iface =>
      cases fault : c.fault with
      | some err => simp [ManagerOp.exec, RepoOp.exec, fault, loaded] at listed
      | none =>
        simp only [ManagerOp.exec, RepoOp.exec, fault] at listed
        exact stored_of_listed listed
    | _ => simp [loaded] at listed
  | _ => simp [loaded] at listed

/-- What one operation preserves that leaves the stored peers alone. -/
theorem exec_keeps {i : ι} {op : ManagerOp} (spares : Spares op) (c : Circumstance)
    {s : State ι ν w} (inv : contract.inv s) :
    contract.Keeps i s (exec client host i op c s).2 := by
  have same : ∀ id, stored (exec client host i op c s).2.db id = stored s.db id :=
    fun id => congrArg (Option.map content) (exec_peer spares c _ id)
  refine ⟨⟨?_, ?_⟩, fun j ne p => mem_record_of_ne ne op _ s.pending p⟩
  · intro entry later
    rw [same]
    rcases mem_record later with before | now
    · exact inv.1 entry before
    · exact stored_of_loaded now
  · intro step hstep
    rcases List.mem_append.mp hstep with before | now
    · exact inv.2 step before
    · rw [List.mem_singleton.mp now]
      exact same

/-- What the commit of a pending peer preserves. -/
theorem exec_commit_keeps {i : ι} {p saved : Peer} (same : content saved = content p)
    (ui : UserIdentifier) (id : PeerIdentifier) (c : Circumstance) {s : State ι ν w}
    (inv : contract.inv s) (pending : (i, p) ∈ s.pending) :
    contract.Keeps i s (exec client host i (.repo (.commitPeer ui id saved)) c s).2 := by
  let after := exec client host i (.repo (.commitPeer ui id saved)) c s
  have unchanged : ∀ other, stored after.2.db other = stored s.db other := by
    intro other
    have identifier : (content saved).identifier = (content p).identifier := by rw [same]
    have identifier : saved.identifier = p.identifier := identifier
    have current : stored s.db saved.identifier = some (content saved) := by
      rw [identifier, same]
      exact inv.1 (i, p) pending
    simp only [after, exec, ManagerOp.exec, RepoOp.exec]
    cases c.fault with
    | some err => rfl
    | none => exact stored_commitPeer current ui c.now id other
  refine ⟨⟨?_, ?_⟩, fun j ne q => mem_record_of_ne ne _ _ s.pending q⟩
  · intro entry later
    rw [unchanged]
    rcases mem_record later with before | now
    · exact inv.1 entry before
    · simp [loaded] at now
  · intro step hstep
    rcases List.mem_append.mp hstep with before | now
    · exact inv.2 step before
    · rw [List.mem_singleton.mp now]
      exact unchanged

abbrev Sound (client : Client w) (host : ι → ν) (m : ι → Manager) (i : ι) {β : Type} :
    (β → State ι ν w → Prop) → ManagerProgram β → State ι ν w → Prop :=
  contract.Sound (system client host m) guard i

/-- The peers are pending for `i`. -/
def Awaits (i : ι) (peers : List Peer) (s : State ι ν w) : Prop := ∀ p ∈ peers, (i, p) ∈ s.pending

omit [DecidableEq ι] [DecidableEq ν] in
theorem Awaits.stable {i : ι} {peers : List Peer} {s t : State ι ν w} (awaits : Awaits i peers s)
    (later : contract.rely i s t) : Awaits i peers t :=
  fun p hp => (later p).mpr (awaits p hp)

theorem sound_call {i : ι} {β : Type} {post : β → State ι ν w → Prop} {op : ManagerOp}
    {rest : op.Res → ManagerProgram β} {s : State ι ν w} (spares : Spares op)
    (next : ∀ t c, contract.rely i s t → contract.inv t →
      contract.inv (exec client host i op c t).2 → Sound client host m i post
      (rest (exec client host i op c t).1) (exec client host i op c t).2) :
    Sound client host m i post (.call op rest) s := by
  intro t c later inv _
  have keeps : contract.Keeps i t (exec client host i op c t).2 := exec_keeps spares c inv
  exact ⟨keeps, next t c later inv keeps.1⟩

theorem sound_ret {i : ι} {β : Type} {post : β → State ι ν w → Prop} {b : β} {s : State ι ν w}
    (holds : ∀ t, contract.rely i s t → post b t) : Sound client host m i post (.ret b) s :=
  fun t later _ => holds t later

/-- The row of a pending peer gives it the calculated attributes it has already. -/
theorem content_copyCalculatedAttributes {db : Db} {p : Peer}
    (current : stored db p.identifier = some (content p)) (ui : UserIdentifier) (now : Time) :
    content (p.copyCalculatedAttributes (db.getOrCreatePeer ui now p.identifier)) = content p := by
  obtain ⟨peer, found, same⟩ := Option.map_eq_some_iff.mp current
  obtain ⟨row, stored, rfl⟩ := Db.find_of_peer found
  have base : (content (db.load row)).base = (content p).base := by rw [same]
  simp only [content, Db.load, loadAddresses, BaseModel.mk.injEq] at base
  simp only [content, Peer.copyCalculatedAttributes, Db.getOrCreatePeer, stored, base.1, base.2.2.1]

/-- An operation that answers with success, other than to load, list or commit. -/
theorem awaits_exec {i : ι} {op : ManagerOp} {c : Circumstance} {peers : List Peer} {s : State ι ν w}
    {answer : op.Res} (awaits : Awaits i peers s) (answers : (exec client host i op c s).1 = answer)
    (kept : record i op answer s.pending = s.pending) :
    Awaits i peers (exec client host i op c s).2 := by
  have pending : (exec client host i op c s).2.pending = s.pending := by
    rw [← kept, ← answers]
    rfl
  unfold Awaits
  rw [pending]
  exact awaits

/-- The commit of the first peer leaves the others pending. -/
theorem awaits_commit {i : ι} {p saved : Peer} {others : List Peer} {ui : UserIdentifier}
    {id : PeerIdentifier} {c : Circumstance} {s : State ι ν w} (awaits : Awaits i (p :: others) s)
    (distinct : ∀ q ∈ others, q.identifier ≠ saved.identifier) {written : Peer}
    (answers : (exec client host i (.repo (.commitPeer ui id saved)) c s).1 = .ok written) :
    Awaits i others (exec client host i (.repo (.commitPeer ui id saved)) c s).2 := by
  have pending : (exec client host i (.repo (.commitPeer ui id saved)) c s).2.pending =
      record i (.repo (.commitPeer ui id saved)) (.ok written) s.pending := by
    rw [← answers]
    rfl
  intro q hq
  rw [pending]
  refine List.mem_filter.mpr ⟨awaits q (List.mem_cons_of_mem p hq), ?_⟩
  simp [distinct q hq]

/-- What a batch still relies on after one of its peers. -/
def Leaves (i : ι) (others : List Peer) {β : Type} (result : Except Error β)
    (s : State ι ν w) : Prop :=
  ∀ b, result = .ok b → Awaits i others s

theorem sound_error {i : ι} {others : List Peer} {β : Type} {err : Error} {s : State ι ν w} :
    Sound client host m i (Leaves i others) (.ret (.error err : Except Error β)) s :=
  sound_ret fun _ _ _ none => by cases none

theorem sound_repoSavePeer {i : ι} (ui : ContextUserInfo) (iface : Interface) {p : Peer}
    {others : List Peer} {s : State ι ν w} (awaits : Awaits i (p :: others) s)
    (distinct : ∀ q ∈ others, q.identifier ≠ p.identifier) :
    Sound client host m i (Leaves i others)
      (repoSavePeer ui p.identifier ((m i).saveToBackend iface p)) s := by
  unfold repoSavePeer
  refine sound_call trivial fun t c later inv _ => ?_
  have awaits := awaits.stable later
  cases answer : (exec client host i (.repo (.getOrCreatePeer ui.id p.identifier)) c t).1 with
  | error err => exact sound_error
  | ok row =>
    have same : content (p.copyCalculatedAttributes row) = content p := by
      have current := inv.1 (i, p) (awaits p List.mem_cons_self)
      simp only [exec, ManagerOp.exec, RepoOp.exec] at answer
      split at answer
      · cases answer
      · rw [← Except.ok.inj answer]
        exact content_copyCalculatedAttributes current ui.id c.now
    have distinct : ∀ q ∈ others, q.identifier ≠ (p.copyCalculatedAttributes row).identifier :=
      distinct
    have awaits := awaits_exec awaits answer rfl
    refine sound_call trivial fun u c' later' _ _ => ?_
    have awaits := awaits.stable later'
    cases written : (exec client host i _ c' u).1 with
    | error err => exact sound_error
    | ok _ =>
      have awaits := awaits_exec awaits written rfl
      intro v c'' later'' inv'' _
      have awaits := awaits.stable later''
      refine ⟨exec_commit_keeps same ui.id p.identifier c'' inv'' (awaits p List.mem_cons_self), ?_⟩
      refine sound_ret fun x last b answers => ?_
      exact (awaits_commit awaits distinct answers).stable last

/-- One round of the loop over the peers of a batch; `others` come later. -/
theorem sound_saveOne {i : ι} (ui : ContextUserInfo) {p : Peer} {others : List Peer}
    {s : State ι ν w} (awaits : Awaits i (p :: others) s)
    (distinct : ∀ q ∈ others, q.identifier ≠ p.identifier) :
    Sound client host m i (Leaves i others) ((m i).saveOne ui p) s := by
  unfold Manager.saveOne
  refine sound_call trivial fun t c later _ inv => ?_
  have awaits := awaits.stable later
  cases answer : (exec client host i (.repo (.getInterface p.interfaceIdentifier)) c t).1 with
  | error err => exact sound_error
  | ok iface =>
    have awaits := awaits_exec awaits answer rfl
    refine (sound_repoSavePeer ui iface awaits distinct).bind inv fun result u _ leaves => ?_
    cases result with
    | error err => exact sound_error
    | ok saved =>
      have awaits := leaves saved rfl
      refine sound_call trivial fun v c' later' _ _ => ?_
      refine sound_ret fun x last _ _ => ?_
      exact (awaits_exec (awaits.stable later') rfl rfl).stable last

theorem sound_saveAll {i : ι} (ui : ContextUserInfo) {peers : List Peer} {s : State ι ν w}
    (inv : contract.inv s) (awaits : Awaits i peers s)
    (nodup : (peers.map Peer.identifier).Nodup) :
    Sound client host m i (fun _ _ => True) ((m i).saveAll ui peers) s := by
  induction peers generalizing s with
  | nil => exact sound_ret fun _ _ => trivial
  | cons p peers ih =>
    have distinct : ∀ q ∈ peers, q.identifier ≠ p.identifier := by
      intro q hq same
      exact (List.nodup_cons.mp nodup).1 (same ▸ List.mem_map_of_mem hq)
    refine (sound_saveOne ui awaits distinct).bind inv fun result t inv' leaves => ?_
    cases result with
    | error err => exact sound_ret fun _ _ => trivial
    | ok saved =>
      refine (ih inv' (leaves saved rfl) (List.nodup_cons.mp nodup).2).bind inv' ?_
      intro result u _ _
      cases result <;> exact sound_ret fun _ _ => trivial

theorem sound_applyPeers {i : ι} (ui : ContextUserInfo) (noFanout : Bool) {peers : List Peer}
    {s : State ι ν w} (inv : contract.inv s) (awaits : Awaits i peers s)
    (nodup : (peers.map Peer.identifier).Nodup) :
    Sound client host m i (fun _ _ => True) ((m i).applyPeers ui noFanout peers) s := by
  have enabled : Awaits i (peers.filter fun p => !p.isDisabled) s :=
    fun p hp => awaits p (List.mem_filter.mp hp).1
  have nodup' : ((peers.filter fun p => !p.isDisabled).map Peer.identifier).Nodup :=
    nodup.sublist (List.filter_sublist.map _)
  have saved : Sound client host m i (fun _ _ => True)
      ((m i).savePeers ui (peers.filter fun p => !p.isDisabled)) s := by
    refine (sound_saveAll ui inv enabled nodup').bind inv fun result t _ _ => ?_
    cases result with
    | error err => exact sound_ret fun _ _ => trivial
    | ok saved =>
      dsimp only
      split
      · exact sound_call trivial fun _ _ _ _ _ => sound_ret fun _ _ => trivial
      · exact sound_ret fun _ _ => trivial
  unfold Manager.applyPeers
  dsimp only
  split
  · exact sound_ret fun _ _ => trivial
  · refine saved.bind inv fun result t _ _ => ?_
    cases result with
    | error err => exact sound_ret fun _ _ => trivial
    | ok saved =>
      dsimp only
      split
      · exact sound_call trivial fun _ _ _ _ _ => sound_ret fun _ _ => trivial
      · exact sound_ret fun _ _ => trivial

/-- The enabled ones of the peers that were loaded are pending. -/
theorem awaits_loaded {i : ι} {iface : InterfaceIdentifier} {c : Circumstance} {s : State ι ν w}
    {peers : List Peer}
    (answers : (exec client host i (.repo (.getInterfacePeers iface)) c s).1 = .ok peers) :
    Awaits i (peers.filter fun p => !p.isDisabled)
      (exec client host i (.repo (.getInterfacePeers iface)) c s).2 := by
  have pending : (exec client host i (.repo (.getInterfacePeers iface)) c s).2.pending =
      record i (.repo (.getInterfacePeers iface)) (.ok peers) s.pending := by
    rw [← answers]
    rfl
  intro p hp
  rw [pending]
  exact List.mem_append_right _ (List.mem_map_of_mem hp)

theorem nodup_loaded {i : ι} {iface : InterfaceIdentifier} {c : Circumstance} {s : State ι ν w}
    {peers : List Peer}
    (answers : (exec client host i (.repo (.getInterfacePeers iface)) c s).1 = .ok peers) :
    (peers.map Peer.identifier).Nodup := by
  simp only [exec, ManagerOp.exec, RepoOp.exec] at answers
  split at answers
  · cases answers
  · rw [← Except.ok.inj answers]
    exact Db.nodup_getInterfacePeers s.db iface

/-- Of these the ones that are not skipped stay pending. -/
theorem awaits_listed {i : ι} {iface : InterfaceIdentifier} {c : Circumstance} {s : State ι ν w}
    {peers : List Peer} {listed : List PhysicalPeer} (awaits : Awaits i peers s)
    (answers : (exec client host i (.getPeers iface) c s).1 = .ok listed) (order : MapOrder Peer) :
    Awaits i (peersToUpdate order (listed.map listedPeer) peers)
      (exec client host i (.getPeers iface) c s).2 := by
  have pending : (exec client host i (.getPeers iface) c s).2.pending =
      record i (.getPeers iface) (.ok listed) s.pending := by
    rw [← answers]
    rfl
  intro p hp
  obtain ⟨among, differs⟩ := List.mem_filter.mp hp
  have waiting := awaits p ((order.perm peers).mem_iff.mp among)
  rw [pending]
  exact List.mem_filter.mpr ⟨waiting, by simp [differs]⟩

theorem sound_removePeers {i : ι} (iface : InterfaceIdentifier) (ids : List PeerIdentifier)
    {peers : List Peer} {s : State ι ν w} (awaits : Awaits i peers s) :
    Sound client host m i (fun _ => Awaits i peers) (removePeers iface ids) s := by
  let Deletes : ManagerOp → Prop := fun op => ∃ id, op = .deletePeer localBackendName iface id
  have uses : (removePeers iface ids).Uses Deletes := by
    induction ids with
    | nil => trivial
    | cons id ids ih =>
      refine ⟨⟨id, rfl⟩, fun answer => ?_⟩
      cases answer <;> exact ih
  refine Contract.Sound.of_uses (fun _ _ later awaits => awaits.stable later) ?_ uses awaits
  intro op t c deletes inv awaits _
  obtain ⟨id, rfl⟩ := deletes
  exact ⟨exec_keeps (by exact trivial) c inv, awaits_exec awaits rfl rfl⟩

theorem sound_syncInterface {i : ι} (order : MapOrder Peer) (ui : ContextUserInfo)
    (noFanout : Bool) (iface : Interface) (s : State ι ν w) :
    Sound client host m i (fun _ _ => True) ((m i).syncInterface order ui noFanout iface) s := by
  unfold Manager.syncInterface
  refine sound_call trivial fun t c _ _ _ => ?_
  cases answer : (exec client host i (.repo (.getInterfacePeers iface.identifier)) c t).1 with
  | error err => exact sound_ret fun _ _ => trivial
  | ok peers =>
    have awaits := awaits_loaded answer
    have nodup : ((peers.filter fun p => !p.isDisabled).map Peer.identifier).Nodup :=
      (nodup_loaded answer).sublist (List.filter_sublist.map _)
    refine sound_call trivial fun u c' later' _ inv' => ?_
    have awaits := awaits.stable later'
    cases listed : (exec client host i (.getPeers iface.identifier) c' u).1 with
    | error err => exact sound_ret fun _ _ => trivial
    | ok listedPeers =>
      have awaits := awaits_listed awaits listed order
      refine (sound_removePeers iface.identifier _ awaits).bind inv' fun _ v inv'' awaits => ?_
      refine (sound_applyPeers ui noFanout inv'' awaits ?_).bind inv'' fun _ _ _ _ =>
        sound_ret fun _ _ => trivial
      have perm := (order.perm (peers.filter fun p => !p.isDisabled)).map Peer.identifier
      exact (perm.nodup_iff.mpr nodup).sublist (List.filter_sublist.map _)

theorem sound_syncInterfaces {i : ι} (order : MapOrder Peer) (ui : ContextUserInfo)
    (noFanout : Bool) (ifaces : List Interface) {s : State ι ν w} (inv : contract.inv s) :
    Sound client host m i (fun _ _ => True) ((m i).syncInterfaces order ui noFanout ifaces) s := by
  induction ifaces generalizing s with
  | nil => exact sound_ret fun _ _ => trivial
  | cons iface ifaces ih =>
    refine (sound_syncInterface order ui noFanout iface s).bind inv fun loaded t inv' _ => ?_
    exact (ih inv').bind inv' fun _ _ _ _ => sound_ret fun _ _ => trivial

theorem cleanOrphanedStatuses_spares (cfg : Config) : (cleanOrphanedStatuses cfg).Uses Spares := by
  refine (cleanOrphanedStatuses_passive cfg).mono fun op passive => ?_
  unfold Spares
  split
  · exact passive
  · exact passive
  · trivial

theorem sound_syncAllPeersFromDB {i : ι} (call : Call) {s : State ι ν w} (inv : contract.inv s) :
    Sound client host m i (fun _ _ => True)
      ((m i).syncAllPeersFromDB call.order call.ui call.noFanout) s := by
  have cleaned : Sound client host m i (fun _ _ => True) (cleanOrphanedStatuses (m i).cfg) s := by
    refine Contract.Sound.of_uses (fun _ _ _ _ => trivial) ?_
      (cleanOrphanedStatuses_spares (m i).cfg) trivial
    exact fun op t c spares inv _ _ => ⟨exec_keeps spares c inv, trivial⟩
  have rest : ∀ {next : Except Error (List Interface) → ManagerProgram (ℕ × Option Error)},
      (∀ err, ∃ result, next (.error err) = .ret result) →
      (∀ ifaces, next (.ok ifaces) =
        (m i).syncInterfaces call.order call.ui call.noFanout ifaces >>= fun n => .ret (n, none)) →
      ∀ t : State ι ν w,
        Sound client host m i (fun _ _ => True) (.call (.repo .getAllInterfaces) next) t := by
    intro next failed listed t
    refine sound_call trivial fun u c _ _ inv' => ?_
    cases (exec client host i (.repo .getAllInterfaces) c u).1 with
    | error err =>
      obtain ⟨result, ends⟩ := failed err
      rw [ends]
      exact sound_ret fun _ _ => trivial
    | ok ifaces =>
      rw [listed ifaces]
      exact (sound_syncInterfaces call.order call.ui call.noFanout ifaces inv').bind inv'
        fun _ _ _ _ => sound_ret fun _ _ => trivial
  unfold Manager.syncAllPeersFromDB
  split
  · exact sound_ret fun _ _ => trivial
  · split
    · exact cleaned.bind inv fun _ t _ _ => rest (fun _ => ⟨_, rfl⟩) (fun _ => rfl) t
    · exact rest (fun _ => ⟨_, rfl⟩) (fun _ => rfl) s

theorem finishes {i : ι} (result : ℕ × Option Error) {s : State ι ν w} (inv : contract.inv s) :
    contract.Finishes (system client host m) i result s := by
  refine ⟨⟨fun entry later => inv.1 entry (List.mem_filter.mp later).1, inv.2⟩, fun j ne p => ?_⟩
  simp [system, ne]

theorem upheld : Contract.Upheld (system client host m) contract guard where
  env := by
    intro e s t inv allowed step
    rw [← Option.some.inj step]
    have pending : (e.apply s).pending = s.pending := by cases e <;> rfl
    have steps : (e.apply s).steps = s.steps := by cases e <;> rfl
    refine ⟨⟨fun entry hentry => ?_, ?_⟩, fun i p => by rw [pending]⟩
    · rw [pending] at hentry
      rw [allowed entry hentry]
      exact inv.1 entry hentry
    · unfold ReadOnly
      rw [steps]
      exact inv.2
  start := by
    intro i call s p t inv _ step
    obtain ⟨rfl, rfl⟩ := Prod.mk.inj (Option.some.inj step)
    refine ⟨⟨inv, fun _ _ _ => Iff.rfl⟩, ?_⟩
    exact (sound_syncAllPeersFromDB call inv).mono fun result t inv _ => finishes result inv

/-- In a run in which no other node deletes or changes a peer between its load
and its write by a sync, no sync changes what is stored for any peer. -/
theorem guarded_run_readOnly (client : Client w) (host : ι → ν) (m : ι → Manager)
    {s : State ι ν w} (fresh : s.pending = []) (first : s.steps = [])
    {turns : List (Turn ι (Env ν w) Call Circumstance)}
    {q : Pool ι ManagerOp ManagerOp.Res (ℕ × Option Error) (State ι ν w)}
    (guarded : Guarded (system client host m).next guard.turn (idle s) turns)
    (run : runFrom (system client host m).next (idle s) turns = some q) : ReadOnly q.shared := by
  have start : contract.inv s := by
    refine ⟨fun entry hentry => ?_, fun step hstep => ?_⟩
    · rw [fresh] at hentry
      cases hentry
    · rw [first] at hstep
      cases hstep
  have invariant : contract.inv q.shared := Contract.preserved upheld start guarded run
  exact invariant.2

/-- Two nodes with a common database, in which one peer is enabled. -/
def twoNodes : State ℕ Bool plainTypes :=
  let world := oneInterface Device.empty [enabledPeer key]
  ⟨world.db, fun _ => world.devices, [], []⟩

abbrev samples : System ℕ (Env Bool plainTypes) Call ManagerOp ManagerOp.Res Circumstance
    (ℕ × Option Error) (State ℕ Bool plainTypes) :=
  system (plainClient plainTypes) (fun i => i % 2 = 0) fun _ => singleNode

abbrev SampleTurn := Turn ℕ (Env Bool plainTypes) Call Circumstance

def steps (i n : ℕ) : List SampleTurn := List.replicate n (.step i (calm 0))

def start (i : ℕ) : SampleTurn := .start i ⟨MapOrder.listed, admin, false⟩

/-- The peer gets an expiry before the syncs of both nodes, and is deleted when
the second sync of the two has written it. -/
def changedBefore : List SampleTurn :=
  .env (.savePeer "admin" 10 key { enabledPeer key with expiresAt := some 100 }) ::
    start 0 :: steps 0 3 ++ start 1 :: steps 1 8 ++ steps 0 4 ++ .env (.deletePeer key) ::
    steps 0 4 ++ steps 1 3

theorem changedBefore_readOnly :
    ∃ q, runFrom samples.next (idle twoNodes) changedBefore = some q ∧
      q.shared.steps.length = 20 ∧ q.shared.db.peer key = none ∧ ReadOnly q.shared := by
  have run : (runFrom samples.next (idle twoNodes) changedBefore).map
      (fun q => (q.shared.steps.length, q.shared.db.peer key)) = some (20, none) := by
    decide +kernel
  obtain ⟨q, reached, facts⟩ := Option.map_eq_some_iff.mp run
  obtain ⟨length, removed⟩ := Prod.mk.inj facts
  exact ⟨q, reached, length, removed,
    guarded_run_readOnly _ _ _ rfl rfl (by decide +kernel) reached⟩

/-- Another node acts when the sync has loaded the peer; last the sync writes it. -/
def meanwhile (e : Env Bool plainTypes) : List SampleTurn :=
  start 0 :: steps 0 3 ++ .env e :: steps 0 4

/-- The expiry dates of the peer around the last operation of a run. -/
def lastExpiry (q : Pool ℕ ManagerOp ManagerOp.Res (ℕ × Option Error) (State ℕ Bool plainTypes)) :
    Option (Option (Option Time) × Option (Option Time)) :=
  q.shared.steps.getLast?.map fun step =>
    ((stored step.1 key).map Peer.expiresAt, (stored step.2 key).map Peer.expiresAt)

theorem not_readOnly_of_lastExpiry
    {q : Pool ℕ ManagerOp ManagerOp.Res (ℕ × Option Error) (State ℕ Bool plainTypes)}
    {before after : Option (Option Time)} (last : lastExpiry q = some (before, after))
    (differ : before ≠ after) : ¬ ReadOnly q.shared := by
  intro readOnly
  obtain ⟨step, final, expiries⟩ := Option.map_eq_some_iff.mp last
  have same := readOnly step (List.mem_of_getLast? final) key
  rw [same] at expiries
  exact differ ((Prod.mk.inj expiries).1.symm.trans (Prod.mk.inj expiries).2)

/-- A deleted peer is created again, and a new expiry is reverted. -/
theorem meanwhile_not_readOnly :
    (∃ q, runFrom samples.next (idle twoNodes) (meanwhile (.deletePeer key)) = some q ∧
      lastExpiry q = some (none, some none) ∧ ¬ ReadOnly q.shared) ∧
    ∃ q, runFrom samples.next (idle twoNodes)
        (meanwhile (.savePeer "admin" 10 key { enabledPeer key with expiresAt := some 100 })) =
          some q ∧
      lastExpiry q = some (some (some 100), some none) ∧ ¬ ReadOnly q.shared := by
  have recreated : (runFrom samples.next (idle twoNodes) (meanwhile (.deletePeer key))).map
      lastExpiry = some (some (none, some none)) := by decide +kernel
  have reverted : (runFrom samples.next (idle twoNodes)
      (meanwhile (.savePeer "admin" 10 key { enabledPeer key with expiresAt := some 100 }))).map
        lastExpiry = some (some (some (some 100), some none)) := by decide +kernel
  obtain ⟨q, reached, last⟩ := Option.map_eq_some_iff.mp recreated
  obtain ⟨q', reached', last'⟩ := Option.map_eq_some_iff.mp reverted
  exact ⟨⟨q, reached, last, not_readOnly_of_lastExpiry last (by decide)⟩,
    ⟨q', reached', last', not_readOnly_of_lastExpiry last' (by decide)⟩⟩

end WgPortal.WireGuard.SyncConcurrent
