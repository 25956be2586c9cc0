import WgPortal.WireGuard.Statistics

/-! Whether the statuses that the collector passes to the metrics and publishes are
those that it persists. -/

namespace WgPortal.WireGuard.StatusPublishing

open Domain Library Adapters Config

/-- The status that an operation passes on. -/
def passedBy : StatsOp → List PeerStatus
  | .updatePeerMetricsValues _ status => [status]
  | .publish status _ => [status]
  | _ => []

/-- A call of the collector: the row that it persisted and what it passed on. -/
structure Journal where
  turn : ℕ
  db : Db
  persisted : Option PeerStatus
  passed : List PeerStatus

variable (cfg : Config) (devices : InterfaceIdentifier → List PhysicalPeer)
  (occasions : ℕ → Occasion)

def record (op : StatsOp) (j : Journal) : op.Res × Journal :=
  let o := occasions j.turn
  let row := op.row cfg o j.db
  (op.answer cfg devices o j.db,
    ⟨j.turn + 1, storeStatus j.db row, row.or j.persisted, j.passed ++ passedBy op⟩)

/-- The journal of a call with nothing in between its operations. -/
def journal (prog : StatsProgram Unit) (db : Db) : Journal :=
  (prog.eval (record cfg devices occasions) ⟨0, db, none, []⟩).2

/-- What is passed on is what is persisted. -/
def Agrees (j : Journal) : Prop := ∀ status ∈ j.passed, j.persisted = some status

theorem captured_append (f : StatusChange) (seen : List Seen) (last : Seen) :
    captured f (seen ++ [last]) = capture f (captured f seen) last := by
  simp only [captured, List.foldl_append, List.foldl_cons, List.foldl_nil]

/-- The captured status is that of the last change. -/
theorem captured_cases (f : StatusChange) (seen : List Seen) :
    (∀ s ∈ seen, changes f s = false) ∧ (captured f seen).stateChanged = false ∧
        (captured f seen).newStatus = noStatus ∨
      (captured f seen).stateChanged = true ∧
        ∃ s ∈ seen, changes f s = true ∧ (captured f seen).newStatus = f.apply s.now s.status := by
  induction seen using List.reverseRecOn with
  | nil => exact .inl ⟨fun _ h => absurd h List.not_mem_nil, rfl, rfl⟩
  | append_singleton seen last ih =>
    rw [captured_append]
    cases changed : changes f last with
    | true =>
      refine .inr ⟨by simp [capture, changed], last, by simp, changed, by simp [capture, changed]⟩
    | false =>
      rcases ih with ⟨same, unchanged, none⟩ | ⟨changed', s, hs, hc, status⟩
      · refine .inl ⟨fun s hs => ?_, by simp [capture, changed, unchanged],
          by simp [capture, changed, none]⟩
        rcases List.mem_append.mp hs with before | here
        · exact same s before
        · rw [List.mem_singleton.mp here, changed]
      · exact .inr ⟨by simp [capture, changed'], s, List.mem_append_left _ hs, hc,
          by simp [capture, changed, status]⟩

variable {cfg devices occasions} {db : Db}

theorem eval_updatePeerMetrics (status : PeerStatus) (stateChanged : Bool) (peer : Peer)
    (j : Journal) :
    ∃ turn, ((updatePeerMetrics cfg status stateChanged peer).eval
        (record cfg devices occasions) j).2 =
      { j with turn := turn, passed := j.passed ++ [status] } := by
  simp only [updatePeerMetrics, StatsProgram.issue, Program.call_bind, Program.ret_bind,
    Program.eval_call]
  split
  · exact ⟨j.turn + 2, by simp [record, StatsOp.row, storeStatus, passedBy]⟩
  · split
    · exact ⟨j.turn + 2, by simp [record, StatsOp.row, storeStatus, passedBy]⟩
    · exact ⟨j.turn + 1, by simp [record, StatsOp.row, storeStatus, passedBy]⟩

theorem eval_publish (status : PeerStatus) (peer : Peer) (j : Journal) :
    ((StatsProgram.issue (.publish status peer)).eval (record cfg devices occasions) j).2 =
      { j with turn := j.turn + 1, passed := j.passed ++ [status] } := by
  simp [StatsProgram.issue, record, StatsOp.row, storeStatus, passedBy]

theorem record_getPeer (purpose : Purpose) (id : PeerIdentifier) (j : Journal) :
    record cfg devices occasions (.getPeer purpose id) j =
      (StatsOp.answer cfg devices (occasions j.turn) j.db (.getPeer purpose id),
        { j with turn := j.turn + 1 }) := by
  simp only [record, StatsOp.row, storeStatus, passedBy, Option.none_or, List.append_nil]

/-- An update that is not worth a report passes nothing on, any other both statuses. -/
theorem eval_report (c : Captured) (dbPeer : Peer) (j : Journal) :
    ∃ turn, ((report cfg c dbPeer).eval (record cfg devices occasions) j).2 =
      { j with
        turn := turn
        passed := j.passed ++
          if c.stateChanged || c.lastStatus.isConnected then [c.lastStatus, c.newStatus]
          else [] } := by
  have both : ∀ changed, ∃ turn,
      ((updatePeerMetrics cfg c.lastStatus changed dbPeer >>= fun _ =>
        StatsProgram.issue (.publish c.newStatus dbPeer)).eval (record cfg devices occasions) j).2 =
      { j with turn := turn, passed := j.passed ++ [c.lastStatus, c.newStatus] } := by
    intro changed
    obtain ⟨turn, metrics⟩ :=
      @eval_updatePeerMetrics cfg devices occasions c.lastStatus changed dbPeer j
    refine ⟨turn + 1, ?_⟩
    rw [Program.eval_bind, eval_publish, metrics]
    simp
  unfold report
  cases connected : c.lastStatus.isConnected with
  | true =>
    simpa [connected] using both c.stateChanged
  | false =>
    cases changed : c.stateChanged with
    | true => simpa [connected, changed] using both true
    | false => exact ⟨j.turn, by simp⟩

/-- The peer is found and the transaction commits. -/
structure Commits (cfg : Config) (occasions : ℕ → Occasion) (db : Db) (id : PeerIdentifier)
    (isNewConnection : Bool) : Prop where
  found : (occasions 0).fault = none
  committed : (occasions 1).fault = none
  stored : db.peers.find id ≠ none
  named : isNewConnection = true → cfg.core.clusterNodeId ≠ ""

theorem answer_getPeer {purpose : Purpose} {id : PeerIdentifier} {o : Occasion} :
    (o.fault = none ∧ db.peers.find id ≠ none ∧ ∃ peer,
        StatsOp.answer cfg devices o db (.getPeer purpose id) = .ok peer) ∨
      (o.fault ≠ none ∨ db.peers.find id = none) ∧ ∃ err,
        StatsOp.answer cfg devices o db (.getPeer purpose id) = .error err := by
  cases fault : o.fault with
  | some err => exact .inr ⟨.inl (by simp), err, by simp [StatsOp.answer, fault]⟩
  | none =>
    cases stored : db.peers.find id with
    | none =>
      exact .inr ⟨.inr rfl, .notFound, by simp [StatsOp.answer, fault, Db.getPeer, Db.peer, stored]⟩
    | some row =>
      exact .inl ⟨rfl, by simp, db.load row, by
        simp [StatsOp.answer, fault, Db.getPeer, Db.peer, stored]⟩

theorem updateStatus_committed {o : Occasion} {id : PeerIdentifier} (committed : o.fault = none)
    (stored : db.peers.find id ≠ none) (f : StatusChange) :
    updateStatus cfg o id f db =
      (⟨o.seen ++ [⟨o.now, readStatus db id o.began⟩], .ok ()⟩,
        some (ownedUpdate cfg.core.clusterNodeId (readStatus db id o.began)
          (f.apply o.now (readStatus db id o.began)))) := by
  obtain ⟨row, found⟩ := Option.ne_none_iff_exists'.mp stored
  simp only [updateStatus, committed, found]

theorem claimStatus_committed {o : Occasion} {id : PeerIdentifier} {ownerNodeId : String}
    (named : ownerNodeId ≠ "") (committed : o.fault = none) (stored : db.peers.find id ≠ none)
    (f : StatusChange) :
    claimStatus o id ownerNodeId f db =
      (⟨o.seen ++ [⟨o.now, claimedStatus db id ownerNodeId o.began⟩], .ok ()⟩,
        some { f.apply o.now (claimedStatus db id ownerNodeId o.began) with
          ownerNodeId := ownerNodeId }) := by
  have known : ¬ (db.peerStatuses.find id = none ∧ db.peers.find id = none) := fun none =>
    stored none.2
  simp only [claimStatus, named, committed, known, if_false]

theorem connecting_ownerNodeId (cfg : Config) (wgPeer : PhysicalPeer) (now : Time)
    (old : PeerStatus) : ((connecting cfg wgPeer).apply now old).ownerNodeId = old.ownerNodeId := by
  simp only [connecting, PeerStatus.calcConnected, forcePingable]
  split <;> rfl

theorem connecting_updatedAt (cfg : Config) (wgPeer : PhysicalPeer) (now : Time)
    (old : PeerStatus) : ((connecting cfg wgPeer).apply now old).updatedAt = now := by
  simp only [connecting, PeerStatus.calcConnected, forcePingable]
  split <;> rfl

theorem refreshing_isConnected (cfg : Config) (wgPeer : PhysicalPeer) (now : Time)
    (old : PeerStatus) :
    ((refreshing cfg wgPeer).apply now old).isConnected = old.isConnected := by
  simp only [refreshing, forcePingable]
  split <;> rfl

/-- What the transaction of an update tells and writes. -/
def transaction (cfg : Config) (o : Occasion) (wgPeer : PhysicalPeer) (isNewConnection : Bool)
    (db : Db) : Transacted × Option PeerStatus :=
  if isNewConnection then
    claimStatus o wgPeer.identifier cfg.core.clusterNodeId (connecting cfg wgPeer) db
  else updateStatus cfg o wgPeer.identifier (refreshing cfg wgPeer) db

def updateFunc (cfg : Config) (wgPeer : PhysicalPeer) (isNewConnection : Bool) : StatusChange :=
  if isNewConnection then connecting cfg wgPeer else refreshing cfg wgPeer

/-- An update for a peer that is found, up to its report. -/
theorem journal_of_found {wgPeer : PhysicalPeer} {isNewConnection : Bool} {dbPeer : Peer}
    (found : StatsOp.answer cfg devices (occasions 0) db (.getPeer .refresh wgPeer.identifier) =
      .ok dbPeer) :
    journal cfg devices occasions (updatePeerFromWireGuard cfg wgPeer isNewConnection) db =
      let (done, row) := transaction cfg (occasions 1) wgPeer isNewConnection db
      match done.result with
      | .error _ => ⟨2, storeStatus db row, row, []⟩
      | .ok _ => ((report cfg (captured (updateFunc cfg wgPeer isNewConnection) done.seen)
          dbPeer).eval (record cfg devices occasions) ⟨2, storeStatus db row, row, []⟩).2 := by
  have first : record cfg devices occasions (.getPeer .refresh wgPeer.identifier)
      ⟨0, db, none, []⟩ = (.ok dbPeer, ⟨1, db, none, []⟩) := by
    simp only [record, found, StatsOp.row, storeStatus, passedBy, Option.none_or, List.append_nil]
  cases isNewConnection <;>
    simp only [journal, updatePeerFromWireGuard, StatsProgram.issue, Program.call_bind,
      Program.ret_bind, Program.eval_call, first, if_true, Bool.false_eq_true, if_false]
  case false =>
    cases known : (updateStatus cfg (occasions 1) wgPeer.identifier (refreshing cfg wgPeer)
      db).1.result <;>
    simp only [record, StatsOp.answer, StatsOp.row, transaction, updateFunc, passedBy, known,
      Option.or_none, List.append_nil, Bool.false_eq_true, if_false]
    rfl
  case true =>
    cases known : (claimStatus (occasions 1) wgPeer.identifier cfg.core.clusterNodeId
      (connecting cfg wgPeer) db).1.result <;>
    simp only [record, StatsOp.answer, StatsOp.row, transaction, updateFunc, passedBy, known,
      Option.or_none, List.append_nil, if_true]
    rfl

/-- The last handshake is not older than two minutes. -/
def recent (wgPeer : PhysicalPeer) (now : Time) : Bool :=
  !wgPeer.lastHandshake.isZero && !wgPeer.lastHandshake.before (now - 2 * minute)

/-- A peer is taken for connected: it is pingable, or its handshake is recent. -/
def connects (cfg : Config) (wgPeer : PhysicalPeer) (now : Time) (p : PeerStatus) : Bool :=
  (cfg.statistics.usePingChecks && p.isPingable) || recent wgPeer now

theorem connecting_isConnected (cfg : Config) (wgPeer : PhysicalPeer) (now : Time)
    (old : PeerStatus) :
    ((connecting cfg wgPeer).apply now old).isConnected = connects cfg wgPeer now old := by
  simp only [connecting, PeerStatus.calcConnected, forcePingable, measured, lastHandshake, connects,
    recent]
  cases cfg.statistics.usePingChecks <;> cases wgPeer.lastHandshake.isZero <;> simp

theorem changes_connecting (cfg : Config) (wgPeer : PhysicalPeer) (s : Seen) :
    changes (connecting cfg wgPeer) s =
      (s.status.isConnected != connects cfg wgPeer s.now s.status) := by
  rw [changes, connecting_isConnected]

theorem changes_refreshing (cfg : Config) (wgPeer : PhysicalPeer) (s : Seen) :
    changes (refreshing cfg wgPeer) s = false := by
  simp [changes, refreshing_isConnected]

/-- The statuses of an update for a status `old` agree: a new connection turns it from
offline to connected or the other way round, or it is offline and no earlier attempt
found that it changes; a known connection is offline. -/
def UpdateAgrees (cfg : Config) (o : Occasion) (wgPeer : PhysicalPeer) (old : PeerStatus) :
    (isNewConnection : Bool) → Prop
  | true => old.isConnected ≠ connects cfg wgPeer o.now old ∨
      connects cfg wgPeer o.now old = false ∧
        ∀ s ∈ o.seen, s.status.isConnected = connects cfg wgPeer s.now s.status
  | false => old.isConnected = false

theorem agrees_report {turn : ℕ} {row : PeerStatus} (c : Captured) (dbPeer : Peer) :
    Agrees ((report cfg c dbPeer).eval (record cfg devices occasions)
        ⟨turn, storeStatus db (some row), some row, []⟩).2 ↔
      (c.stateChanged || c.lastStatus.isConnected → c.lastStatus = row ∧ c.newStatus = row) := by
  obtain ⟨turn', reported⟩ :=
    @eval_report cfg devices occasions c dbPeer ⟨turn, storeStatus db (some row), some row, []⟩
  rw [reported]
  cases worth : c.stateChanged || c.lastStatus.isConnected with
  | false => simp [Agrees]
  | true => simp [Agrees, eq_comm]

theorem agrees_claim {o : Occasion} (later : ∀ s ∈ o.seen, s.now < o.now) (wgPeer : PhysicalPeer)
    (old : PeerStatus) :
    let c := captured (connecting cfg wgPeer) (o.seen ++ [⟨o.now, old⟩])
    let row := (connecting cfg wgPeer).apply o.now old
    (c.stateChanged || c.lastStatus.isConnected → c.lastStatus = row ∧ c.newStatus = row) ↔
      UpdateAgrees cfg o wgPeer old true := by
  intro c row
  have last : c.lastStatus = row := by simp only [c, captured_append, capture, row]
  have connected : row.isConnected = connects cfg wgPeer o.now old :=
    connecting_isConnected ..
  simp only [last, true_and, connected]
  have same := changes_connecting cfg wgPeer ⟨o.now, old⟩
  cases changed : changes (connecting cfg wgPeer) ⟨o.now, old⟩ with
  | true =>
    have new : c.newStatus = row := by
      simp only [c, captured_append, capture, changed, if_true, row]
    have turns : old.isConnected ≠ connects cfg wgPeer o.now old := by simpa [changed] using same
    exact ⟨fun _ => .inl turns, fun _ _ => new⟩
  | false =>
    have stays : old.isConnected = connects cfg wgPeer o.now old := by simpa [changed] using same
    have earlier : c.newStatus = (captured (connecting cfg wgPeer) o.seen).newStatus ∧
        c.stateChanged = (captured (connecting cfg wgPeer) o.seen).stateChanged := by
      simp [c, captured_append, capture, changed]
    simp only [UpdateAgrees, stays, ne_eq, not_true, false_or, earlier]
    rcases captured_cases (connecting cfg wgPeer) o.seen with
      ⟨unchanged, never, none⟩ | ⟨once, s, hs, hc, status⟩
    · rw [never, none, Bool.false_or]
      have all : ∀ s ∈ o.seen, s.status.isConnected = connects cfg wgPeer s.now s.status := by
        intro s hs
        simpa [changes_connecting] using unchanged s hs
      cases online : connects cfg wgPeer o.now old with
      | false => exact ⟨fun _ => ⟨rfl, all⟩, fun _ h => absurd h (by decide)⟩
      | true =>
        refine ⟨fun agrees => ?_, fun h => absurd h.1 (by decide)⟩
        have offline : row.isConnected = false := by
          rw [← agrees rfl]
          rfl
        rw [connected, online] at offline
        cases offline
    · rw [once, status, Bool.true_or]
      constructor
      · intro agrees
        have times := congrArg PeerStatus.updatedAt (agrees rfl)
        rw [connecting_updatedAt, connecting_updatedAt] at times
        exact absurd times (later s hs).ne
      · rintro ⟨_, unchanged⟩
        rw [changes_connecting, unchanged s hs] at hc
        simp at hc

/-- What the repository makes of a status that is refreshed. -/
theorem agrees_refresh (o : Occasion) (wgPeer : PhysicalPeer) (old : PeerStatus) :
    let c := captured (refreshing cfg wgPeer) (o.seen ++ [⟨o.now, old⟩])
    let row := ownedUpdate cfg.core.clusterNodeId old ((refreshing cfg wgPeer).apply o.now old)
    (c.stateChanged || c.lastStatus.isConnected → c.lastStatus = row ∧ c.newStatus = row) ↔
      UpdateAgrees cfg o wgPeer old false := by
  intro c row
  have online : c.lastStatus.isConnected = old.isConnected := by
    simp only [c, captured_append, capture]
    exact refreshing_isConnected ..
  have never : c.stateChanged = false ∧ c.newStatus = noStatus := by
    rcases captured_cases (refreshing cfg wgPeer) (o.seen ++ [⟨o.now, old⟩]) with
      ⟨_, unchanged, none⟩ | ⟨_, s, _, changed, _⟩
    · exact ⟨unchanged, none⟩
    · rw [changes_refreshing] at changed
      cases changed
  rw [never.1, never.2, online, Bool.false_or]
  cases before : old.isConnected with
  | false => exact ⟨fun _ => before, fun _ h => absurd h (by decide)⟩
  | true =>
    refine ⟨fun agrees => ?_, fun offline => absurd (before.symm.trans offline) (by decide)⟩
    have offline : row.isConnected = false := by
      rw [← (agrees rfl).2]
      rfl
    have kept : row.isConnected = true := by
      have after := (refreshing_isConnected cfg wgPeer o.now old).trans before
      simp only [row, ownedUpdate]
      split <;> split <;> simp_all
    rw [kept] at offline
    cases offline

theorem agrees_nil {j : Journal} (none : j.passed = []) : Agrees j := by
  intro status passed
  rw [none] at passed
  cases passed

/-- A transaction that does not commit is reported as failed, once the peer was found. -/
theorem transaction_failed {wgPeer : PhysicalPeer} {isNewConnection : Bool}
    (found : (occasions 0).fault = none) (stored : db.peers.find wgPeer.identifier ≠ none)
    (fails : ¬ Commits cfg occasions db wgPeer.identifier isNewConnection) :
    ∃ err, (transaction cfg (occasions 1) wgPeer isNewConnection db).1.result = .error err := by
  cases fault : (occasions 1).fault with
  | some err =>
    cases isNewConnection with
    | false => exact ⟨err, by simp [transaction, updateStatus, fault]⟩
    | true =>
      by_cases named : cfg.core.clusterNodeId = ""
      · exact ⟨.other "ownerNodeId cannot be empty", by simp [transaction, claimStatus, named]⟩
      · exact ⟨err, by simp [transaction, claimStatus, named, fault]⟩
  | none =>
    cases isNewConnection with
    | false => exact absurd ⟨found, fault, stored, fun h => by cases h⟩ fails
    | true =>
      by_cases named : cfg.core.clusterNodeId = ""
      · exact ⟨.other "ownerNodeId cannot be empty", by simp [transaction, claimStatus, named]⟩
      · exact absurd ⟨found, fault, stored, fun _ => named⟩ fails

/-- What an update passes on is what it persists, under this condition and no other. -/
theorem updatePeerFromWireGuard_agrees_iff (wgPeer : PhysicalPeer) (isNewConnection : Bool)
    (later : ∀ s ∈ (occasions 1).seen, s.now < (occasions 1).now) :
    Agrees (journal cfg devices occasions (updatePeerFromWireGuard cfg wgPeer isNewConnection) db) ↔
      (Commits cfg occasions db wgPeer.identifier isNewConnection →
        UpdateAgrees cfg (occasions 1) wgPeer
          (readStatus db wgPeer.identifier (occasions 1).began) isNewConnection) := by
  rcases @answer_getPeer cfg devices db .refresh wgPeer.identifier (occasions 0) with
    ⟨unfailed, stored, dbPeer, found⟩ | ⟨missing, err, failed⟩
  · rw [journal_of_found found]
    by_cases commits : Commits cfg occasions db wgPeer.identifier isNewConnection
    · simp only [commits, true_imp_iff]
      cases isNewConnection with
      | true =>
        have done := @claimStatus_committed db _ _ _ (commits.named rfl) commits.committed stored
          (connecting cfg wgPeer)
        have kept : ∀ old : PeerStatus, old.ownerNodeId = cfg.core.clusterNodeId →
            { (connecting cfg wgPeer).apply (occasions 1).now old with
              ownerNodeId := cfg.core.clusterNodeId } =
              (connecting cfg wgPeer).apply (occasions 1).now old := by
          intro old owner
          rw [← owner, ← connecting_ownerNodeId cfg wgPeer (occasions 1).now old]
        simp only [transaction, if_true, done, updateFunc]
        rw [kept _ rfl, agrees_report]
        exact agrees_claim later wgPeer _
      | false =>
        have done := @updateStatus_committed cfg db _ _ commits.committed stored
          (refreshing cfg wgPeer)
        simp only [transaction, Bool.false_eq_true, if_false, done, updateFunc]
        rw [agrees_report]
        exact agrees_refresh (occasions 1) wgPeer _
    · obtain ⟨err, failed⟩ := transaction_failed unfailed stored commits
      simp only [failed, commits, false_imp_iff, iff_true]
      exact agrees_nil rfl
  · have first : record cfg devices occasions (.getPeer .refresh wgPeer.identifier)
        ⟨0, db, none, []⟩ = (.error err, ⟨1, db, none, []⟩) := by
      simp only [record, failed, StatsOp.row, storeStatus, passedBy, Option.none_or,
        List.append_nil]
    have fails : ¬ Commits cfg occasions db wgPeer.identifier isNewConnection := by
      intro commits
      rcases missing with fault | gone
      · exact fault commits.found
      · exact commits.stored gone
    simp only [fails, false_imp_iff, iff_true]
    refine agrees_nil ?_
    simp only [journal, updatePeerFromWireGuard, StatsProgram.issue, Program.call_bind,
      Program.ret_bind, Program.eval_call, first]
    rfl

/-- The repository leaves the status of a peer that goes offline alone if nobody owns it. -/
theorem ownedUpdate_offline_iff {clusterNodeId : String} {old new : PeerStatus}
    (offline : new.isConnected = false) (owner : new.ownerNodeId = old.ownerNodeId) :
    ownedUpdate clusterNodeId old new = new ↔ old.ownerNodeId = "" := by
  constructor
  · intro same
    by_contra owned
    simp only [ownedUpdate] at same
    split at same
    · rename_i foreign
      have online : old.isConnected = true := by
        simp only [Bool.and_eq_true] at foreign
        exact foreign.1.1
      rw [if_neg (by simp [online])] at same
      have kept := congrArg PeerStatus.isConnected same
      rw [offline, online] at kept
      cases kept
    · rw [if_pos (by simp [offline, owner, owned])] at same
      exact owned (owner ▸ (congrArg PeerStatus.ownerNodeId same).symm)
  · intro free
    simp [ownedUpdate, free, owner]

theorem ownedUpdate_online {clusterNodeId : String} {old new : PeerStatus}
    (before : old.isConnected = false) (after : new.isConnected = true) :
    ownedUpdate clusterNodeId old new = new := by
  simp [ownedUpdate, before, after]

/-- What is passed on about a peer that is gone is what is persisted if nobody owns it. -/
theorem markPeerDisconnected_agrees_iff (id : PeerIdentifier) :
    Agrees (journal cfg devices occasions (markPeerDisconnected cfg id) db) ↔
      (Commits cfg occasions db id false →
        (readStatus db id (occasions 1).began).ownerNodeId = "") := by
  rcases @answer_getPeer cfg devices db .disconnect id (occasions 0) with
    ⟨unfailed, stored, peer, found⟩ | ⟨missing, err, failed⟩
  · have first : record cfg devices occasions (.getPeer .disconnect id) ⟨0, db, none, []⟩ =
        (.ok peer, ⟨1, db, none, []⟩) := by
      simp only [record, found, StatsOp.row, storeStatus, passedBy, Option.none_or, List.append_nil]
    cases fault : (occasions 1).fault with
    | some err =>
      have fails : ¬ Commits cfg occasions db id false := fun commits =>
        absurd (fault.symm.trans commits.committed) (by simp)
      simp only [fails, false_imp_iff, iff_true]
      refine agrees_nil ?_
      simp only [journal, markPeerDisconnected, StatsProgram.issue, Program.call_bind,
        Program.ret_bind, Program.eval_call, first]
      simp [record, StatsOp.answer, StatsOp.row, updateStatus, fault, passedBy]
    | none =>
      have commits : Commits cfg occasions db id false :=
        ⟨unfailed, fault, stored, fun h => by cases h⟩
      have done := @updateStatus_committed cfg db _ _ fault stored disconnecting
      let old := readStatus db id (occasions 1).began
      let new := disconnecting.apply (occasions 1).now old
      let row := ownedUpdate cfg.core.clusterNodeId old new
      obtain ⟨turn, metrics⟩ := @eval_updatePeerMetrics cfg devices occasions new true peer
        ⟨2, storeStatus db (some row), some row, []⟩
      have passed : (journal cfg devices occasions (markPeerDisconnected cfg id) db) =
          ⟨turn, storeStatus db (some row), some row, [new]⟩ := by
        simp only [journal, markPeerDisconnected, StatsProgram.issue, Program.call_bind,
          Program.ret_bind, Program.eval_call, first]
        simp only [record, StatsOp.answer, StatsOp.row, done, captured_append, capture]
        exact metrics
      have agrees : Agrees ⟨turn, storeStatus db (some row), some row, [new]⟩ ↔ row = new := by
        simp [Agrees]
      rw [passed, agrees]
      simp only [commits, true_imp_iff]
      exact ownedUpdate_offline_iff rfl rfl
  · have first : record cfg devices occasions (.getPeer .disconnect id) ⟨0, db, none, []⟩ =
        (.error err, ⟨1, db, none, []⟩) := by
      simp only [record, failed, StatsOp.row, storeStatus, passedBy, Option.none_or,
        List.append_nil]
    have fails : ¬ Commits cfg occasions db id false := by
      intro commits
      rcases missing with fault | gone
      · exact fault commits.found
      · exact commits.stored gone
    simp only [fails, false_imp_iff, iff_true]
    refine agrees_nil ?_
    simp only [journal, markPeerDisconnected, StatsProgram.issue, Program.call_bind,
      Program.ret_bind, Program.eval_call, first]
    rfl

/-- Whether the ping workers take a peer for connected. -/
def pings (wgPeer : PhysicalPeer) (now : Time) (p : PeerStatus) : Bool :=
  p.isPingable || recent wgPeer now

theorem pinging_isConnected (wgPeer : PhysicalPeer) (now : Time) (old : PeerStatus) :
    ((pinging wgPeer).apply now old).isConnected = pings wgPeer now old := by
  simp only [pinging, PeerStatus.calcConnected, measured, lastHandshake, pings, recent]
  cases wgPeer.lastHandshake.isZero <;> simp

theorem changes_pinging (wgPeer : PhysicalPeer) (s : Seen) :
    changes (pinging wgPeer) s = (s.status.isConnected != pings wgPeer s.now s.status) := by
  rw [changes, pinging_isConnected]

theorem ownedUpdate_updatedAt (clusterNodeId : String) (old new : PeerStatus) :
    (ownedUpdate clusterNodeId old new).updatedAt = new.updatedAt := by
  simp only [ownedUpdate]
  split <;> split <;> rfl

/-- The transaction of a ping commits, and turns the status. -/
structure Turns (o : Occasion) (db : Db) (wgPeer : PhysicalPeer) : Prop where
  committed : o.fault = none
  stored : db.peers.find wgPeer.identifier ≠ none
  turns : (readStatus db wgPeer.identifier o.began).isConnected ≠
    pings wgPeer o.now (readStatus db wgPeer.identifier o.began)

/-- The statuses of a ping agree: the status turns and, if it turns offline, nobody
owns it; otherwise no attempt found that it turns, and there is no peer without a key,
for that is the one that is looked up then. -/
structure PingAgrees (o lookup : Occasion) (db : Db) (wgPeer : PhysicalPeer) : Prop where
  turned : Turns o db wgPeer →
    pings wgPeer o.now (readStatus db wgPeer.identifier o.began) = true ∨
      (readStatus db wgPeer.identifier o.began).ownerNodeId = ""
  stayed : ¬ Turns o db wgPeer →
    (∀ s ∈ o.seen, s.status.isConnected = pings wgPeer s.now s.status) ∧
      (o.fault ≠ none ∨ lookup.fault ≠ none ∨ db.peers.find "" = none)

theorem storeStatus_peers (db : Db) (row : Option PeerStatus) :
    (storeStatus db row).peers = db.peers := by
  cases row <;> rfl

/-- What a ping worker does once its transaction is over. -/
def afterPing (cfg : Config) (c : Captured) (result : Except Error Unit) (jobPeer : Peer) :
    StatsProgram Unit := do
  match result with
  | .error _ => pure ()
  | .ok _ =>
    match ← StatsProgram.issue (.getPeer .refresh c.newStatus.peerId) with
    | .error _ => pure ()
    | .ok peer => updatePeerMetrics cfg c.newStatus c.stateChanged peer
  if c.stateChanged then StatsProgram.issue (.publish c.newStatus jobPeer)

theorem pingWorker_eq (cfg : Config) (wgPeer : PhysicalPeer) (jobPeer : Peer) :
    pingWorker cfg wgPeer jobPeer = (StatsProgram.issue
      (.updatePeerStatus .refresh wgPeer.identifier (pinging wgPeer)) >>= fun done =>
        afterPing cfg (captured (pinging wgPeer) done.seen) done.result jobPeer) := rfl

theorem eval_changed (c : Captured) (jobPeer : Peer) (j : Journal) :
    ∃ turn, ((if c.stateChanged = true then
        StatsProgram.issue (.publish c.newStatus jobPeer) else pure ()).eval
        (record cfg devices occasions) j).2 =
      { j with
        turn := turn
        passed := j.passed ++ if c.stateChanged then [c.newStatus] else [] } := by
  cases c.stateChanged with
  | true => exact ⟨_, eval_publish c.newStatus jobPeer j⟩
  | false => exact ⟨j.turn, by simp⟩

/-- The metrics are given the status if the transaction is committed and there is a
peer to look up, and it is published if it changed. -/
theorem eval_afterPing (c : Captured) (result : Except Error Unit) (jobPeer : Peer)
    {row : Option PeerStatus} :
    Agrees ((afterPing cfg c result jobPeer).eval (record cfg devices occasions)
        ⟨1, storeStatus db row, row, []⟩).2 ↔
      ((c.stateChanged = true ∨ result = .ok () ∧ (occasions 1).fault = none ∧
        db.peers.find c.newStatus.peerId ≠ none) → row = some c.newStatus) := by
  cases result with
  | error err =>
    obtain ⟨turn, passed⟩ :=
      @eval_changed cfg devices occasions c jobPeer ⟨1, storeStatus db row, row, []⟩
    have ends : ((afterPing cfg c (.error err) jobPeer).eval (record cfg devices occasions)
        ⟨1, storeStatus db row, row, []⟩).2 = _ := passed
    rw [ends]
    cases c.stateChanged <;> simp [Agrees]
  | ok _ =>
    rcases @answer_getPeer cfg devices (storeStatus db row) .refresh c.newStatus.peerId
        (occasions 1) with ⟨unfailed, stored, peer, found⟩ | ⟨missing, err, failed⟩
    · obtain ⟨turn, metrics⟩ := @eval_updatePeerMetrics cfg devices occasions c.newStatus
        c.stateChanged peer ⟨2, storeStatus db row, row, []⟩
      obtain ⟨turn', passed⟩ := @eval_changed cfg devices occasions c jobPeer
        ⟨turn, storeStatus db row, row, [c.newStatus]⟩
      rw [storeStatus_peers] at stored
      have known := @record_getPeer cfg devices occasions .refresh c.newStatus.peerId
        ⟨1, storeStatus db row, row, []⟩
      simp only [found] at known
      simp only [afterPing, StatsProgram.issue, Program.call_bind, Program.ret_bind,
        Program.eval_call, known, Program.eval_bind, metrics, List.nil_append]
      refine Iff.trans (Iff.of_eq (congrArg Agrees passed)) ?_
      cases c.stateChanged <;> simp [Agrees, unfailed, stored]
    · obtain ⟨turn, passed⟩ :=
        @eval_changed cfg devices occasions c jobPeer ⟨2, storeStatus db row, row, []⟩
      have known := @record_getPeer cfg devices occasions .refresh c.newStatus.peerId
        ⟨1, storeStatus db row, row, []⟩
      simp only [failed] at known
      rw [storeStatus_peers] at missing
      simp only [afterPing, StatsProgram.issue, Program.call_bind, Program.ret_bind,
        Program.eval_call, known]
      have untold : ¬ ((occasions 1).fault = none ∧ db.peers.find c.newStatus.peerId ≠ none) := by
        rintro ⟨unfailed, stored⟩
        rcases missing with fault | gone
        · exact fault unfailed
        · exact stored gone
      refine Iff.trans (Iff.of_eq (congrArg Agrees passed)) ?_
      simp only [untold, and_false, or_false]
      cases c.stateChanged <;> simp [Agrees]

/-- What the two passings of a ping agree with. -/
theorem unchanged_iff (wgPeer : PhysicalPeer) (seen : List Seen) :
    (captured (pinging wgPeer) seen).stateChanged = false ↔
      ∀ s ∈ seen, s.status.isConnected = pings wgPeer s.now s.status := by
  have same : ∀ s, changes (pinging wgPeer) s = false ↔
      s.status.isConnected = pings wgPeer s.now s.status := by
    intro s
    simp [changes_pinging]
  rcases captured_cases (pinging wgPeer) seen with ⟨none, never, _⟩ | ⟨once, s, hs, changed, _⟩
  · exact ⟨fun _ s hs => (same s).mp (none s hs), fun _ => never⟩
  · refine ⟨fun never => absurd (once.symm.trans never) (by decide), fun all => ?_⟩
    exact absurd (((same s).mpr (all s hs)).symm.trans changed) (by decide)

/-- Without a change there is nothing to publish, and the empty status is for the metrics. -/
theorem newStatus_of_unchanged {f : StatusChange} {seen : List Seen}
    (unchanged : (captured f seen).stateChanged = false) :
    (captured f seen).newStatus = noStatus := by
  rcases captured_cases f seen with ⟨_, _, none⟩ | ⟨once, _⟩
  · exact none
  · exact absurd (once.symm.trans unchanged) (by decide)

variable {o lookup : Occasion} {wgPeer : PhysicalPeer}

/-- Nothing is persisted. -/
theorem agrees_uncommitted
    (uncommitted : ¬ (o.fault = none ∧ db.peers.find wgPeer.identifier ≠ none)) :
    let done := updateStatus cfg o wgPeer.identifier (pinging wgPeer) db
    let c := captured (pinging wgPeer) done.1.seen
    ((c.stateChanged = true ∨ done.1.result = .ok () ∧ lookup.fault = none ∧
        db.peers.find c.newStatus.peerId ≠ none) → done.2 = some c.newStatus) ↔
      PingAgrees o lookup db wgPeer := by
  intro done c
  have none : done.2 = none ∧ done.1.seen = o.seen ∧ (done.1.result = .ok () ↔ o.fault = none) := by
    simp only [done, updateStatus]
    cases fault : o.fault with
    | some err => simp
    | none =>
      cases stored : db.peers.find wgPeer.identifier with
      | none => simp
      | some _ => exact absurd ⟨fault, by simp [stored]⟩ uncommitted
  have stays : ¬ Turns o db wgPeer := fun turns => uncommitted ⟨turns.committed, turns.stored⟩
  have agrees : PingAgrees o lookup db wgPeer ↔ c.stateChanged = false ∧
      (o.fault ≠ .none ∨ lookup.fault ≠ .none ∨ db.peers.find "" = .none) := by
    rw [show c = captured (pinging wgPeer) o.seen by rw [← none.2.1], unchanged_iff]
    exact ⟨fun h => h.stayed stays, fun h => ⟨fun turns => absurd turns stays, fun _ => h⟩⟩
  rw [agrees, none.1, none.2.2]
  cases unchanged : c.stateChanged with
  | true => simp
  | false =>
    rw [newStatus_of_unchanged unchanged]
    simp only [noStatus, PeerStatus.fresh]
    simp
    tauto

/-- A status is persisted. -/
theorem agrees_turned (committed : o.fault = none ∧ db.peers.find wgPeer.identifier ≠ none)
    (later : ∀ s ∈ o.seen, s.now < o.now) (started : 0 < o.now) :
    let old := readStatus db wgPeer.identifier o.began
    let c := captured (pinging wgPeer) (o.seen ++ [⟨o.now, old⟩])
    ((c.stateChanged = true ∨ (.ok () : Except Error Unit) = .ok () ∧ lookup.fault = none ∧
        db.peers.find c.newStatus.peerId ≠ none) →
      some (ownedUpdate cfg.core.clusterNodeId old ((pinging wgPeer).apply o.now old)) =
        some c.newStatus) ↔
      PingAgrees o lookup db wgPeer := by
  intro old c
  let new := (pinging wgPeer).apply o.now old
  let row := ownedUpdate cfg.core.clusterNodeId old new
  have turns : Turns o db wgPeer ↔ old.isConnected ≠ pings wgPeer o.now old :=
    ⟨fun h => h.turns, fun h => ⟨committed.1, committed.2, h⟩⟩
  have online : new.isConnected = pings wgPeer o.now old := pinging_isConnected ..
  have last := changes_pinging wgPeer ⟨o.now, old⟩
  have stamped : row.updatedAt = o.now := ownedUpdate_updatedAt ..
  cases changed : changes (pinging wgPeer) ⟨o.now, old⟩ with
  | true =>
    have status : c.newStatus = new ∧ c.stateChanged = true := by
      simp [c, captured_append, capture, changed, new]
    have turned : old.isConnected ≠ pings wgPeer o.now old := by simpa [changed] using last
    have agrees : PingAgrees o lookup db wgPeer ↔
        pings wgPeer o.now old = true ∨ old.ownerNodeId = "" :=
      ⟨fun h => h.turned (turns.mpr turned),
        fun h => ⟨fun _ => h, fun stays => absurd (turns.mpr turned) stays⟩⟩
    have kept : row = new ↔ pings wgPeer o.now old = true ∨ old.ownerNodeId = "" := by
      cases on : pings wgPeer o.now old with
      | true =>
        have before : old.isConnected = false := by simpa [on] using turned
        simp only [true_or, iff_true]
        exact ownedUpdate_online before (online.trans on)
      | false =>
        simp only [Bool.false_eq_true, false_or]
        exact ownedUpdate_offline_iff (online.trans on) rfl
    rw [agrees, ← kept, status.1, status.2]
    simp only [true_or, true_imp_iff, Option.some.injEq]
    rfl
  | false =>
    have stays : ¬ Turns o db wgPeer := by
      rw [turns, not_not]
      simpa [changed] using last
    have earlier : c.newStatus = (captured (pinging wgPeer) o.seen).newStatus ∧
        c.stateChanged = (captured (pinging wgPeer) o.seen).stateChanged := by
      simp [c, captured_append, capture, changed]
    have agrees : PingAgrees o lookup db wgPeer ↔
        (captured (pinging wgPeer) o.seen).stateChanged = false ∧
          (lookup.fault ≠ none ∨ db.peers.find "" = none) := by
      rw [unchanged_iff]
      constructor
      · intro h
        have stayed := h.stayed stays
        exact ⟨stayed.1, stayed.2.resolve_left fun fault => fault committed.1⟩
      · exact fun h => ⟨fun turns => absurd turns stays, fun _ => ⟨h.1, .inr h.2⟩⟩
    rw [agrees, earlier.1, earlier.2]
    rcases captured_cases (pinging wgPeer) o.seen with
      ⟨_, never, none⟩ | ⟨once, s, hs, _, status⟩
    · have other : row ≠ noStatus := by
        intro same
        rw [same] at stamped
        exact absurd stamped started.ne
      rw [never, none]
      simp only [Bool.false_eq_true, false_or, true_and, Option.some.injEq]
      have differs : ownedUpdate cfg.core.clusterNodeId old ((pinging wgPeer).apply o.now old) ≠
          noStatus := other
      simp only [differs, imp_false, not_and_or, not_not]
      rfl
    · have other : row ≠ (captured (pinging wgPeer) o.seen).newStatus := by
        intro same
        rw [same, status] at stamped
        exact (later s hs).ne stamped
      rw [once]
      simp only [true_or, true_imp_iff, Option.some.injEq]
      exact ⟨fun same => absurd same other, fun h => absurd h.1 (by decide)⟩

/-- What a ping passes on is what it persists, under this condition and no other. -/
theorem pingWorker_agrees_iff (wgPeer : PhysicalPeer) (jobPeer : Peer)
    (later : ∀ s ∈ (occasions 0).seen, s.now < (occasions 0).now)
    (started : 0 < (occasions 0).now) :
    Agrees (journal cfg devices occasions (pingWorker cfg wgPeer jobPeer) db) ↔
      PingAgrees (occasions 0) (occasions 1) db wgPeer := by
  have first : record cfg devices occasions
      (.updatePeerStatus .refresh wgPeer.identifier (pinging wgPeer)) ⟨0, db, none, []⟩ =
      let done := updateStatus cfg (occasions 0) wgPeer.identifier (pinging wgPeer) db
      (done.1, ⟨1, storeStatus db done.2, done.2, []⟩) := by
    simp only [record, StatsOp.answer, StatsOp.row, passedBy, Option.or_none, List.append_nil]
  simp only [journal, pingWorker_eq, StatsProgram.issue, Program.call_bind, Program.ret_bind,
    Program.eval_call, first, eval_afterPing]
  generalize occasions 0 = o at later started ⊢
  by_cases committed : o.fault = none ∧ db.peers.find wgPeer.identifier ≠ none
  · rw [@updateStatus_committed cfg db o wgPeer.identifier committed.1 committed.2]
    exact agrees_turned committed later started
  · exact agrees_uncommitted committed

/-- What the collector passes to the metrics and publishes is what it persists, in
each of its functions exactly under the condition that is stated for it. -/
theorem passed_persisted_iff (later : ∀ turn, ∀ s ∈ (occasions turn).seen,
      s.now < (occasions turn).now) (started : ∀ turn, 0 < (occasions turn).now)
    (wgPeer : PhysicalPeer) (isNewConnection : Bool) (peerID : PeerIdentifier) (jobPeer : Peer) :
    (Agrees (journal cfg devices occasions
        (updatePeerFromWireGuard cfg wgPeer isNewConnection) db) ↔
      (Commits cfg occasions db wgPeer.identifier isNewConnection →
        UpdateAgrees cfg (occasions 1) wgPeer
          (readStatus db wgPeer.identifier (occasions 1).began) isNewConnection)) ∧
    (Agrees (journal cfg devices occasions (markPeerDisconnected cfg peerID) db) ↔
      (Commits cfg occasions db peerID false →
        (readStatus db peerID (occasions 1).began).ownerNodeId = "")) ∧
    (Agrees (journal cfg devices occasions (pingWorker cfg wgPeer jobPeer) db) ↔
      PingAgrees (occasions 0) (occasions 1) db wgPeer) :=
  ⟨updatePeerFromWireGuard_agrees_iff wgPeer isNewConnection (later 1),
    markPeerDisconnected_agrees_iff peerID,
    pingWorker_agrees_iff wgPeer jobPeer (later 0) (started 0)⟩

/-- An hour after the zero time, and no transaction fails. -/
def smooth : ℕ → Occasion := fun _ => ⟨hour, hour, none, []⟩

/-- The peer on the device, with a handshake a minute ago. -/
def activePeer : PhysicalPeer :=
  { PhysicalPeer.zero with identifier := "p", lastHandshake := hour - minute }

/-- A new connection of a peer that was offline. -/
theorem newConnection_agrees :
    Agrees (journal (StatusOwnership.nodeConfig "node-a") (fun _ => [activePeer]) smooth
      (updatePeerFromWireGuard (StatusOwnership.nodeConfig "node-a") activePeer true)
      StatusOwnership.sampleDb) := by
  have exact := @passed_persisted_iff (StatusOwnership.nodeConfig "node-a") (fun _ => [activePeer])
    smooth StatusOwnership.sampleDb (fun _ _ listed => by cases listed)
    (fun _ => (by decide : (0 : Int) < hour))
    activePeer true "p" Peer.zero
  exact exact.1.mpr fun _ => .inl (by decide +kernel)

/-- The peer is connected, and the device still has it. -/
def connectedDb : Db :=
  StatusCalls.Db.putStatus StatusOwnership.sampleDb
    { PeerStatus.fresh "p" 0 with isConnected := true, ownerNodeId := "node-a" }

/-- The status that is published every cycle for a connected peer is the empty one. -/
theorem knownConnection_publishes_noStatus :
    let j := journal (StatusOwnership.nodeConfig "node-a") (fun _ => [activePeer]) smooth
      (updatePeerFromWireGuard (StatusOwnership.nodeConfig "node-a") activePeer false) connectedDb
    noStatus ∈ j.passed ∧ j.persisted.map (fun status => (status.peerId, status.isConnected)) =
      some ("p", true) ∧ ¬ Agrees j := by
  intro j
  have passed : noStatus ∈ j.passed ∧
      j.persisted.map (fun status => (status.peerId, status.isConnected)) = some ("p", true) := by
    decide +kernel
  refine ⟨passed.1, passed.2, fun agrees => ?_⟩
  have known := passed.2
  rw [agrees noStatus passed.1] at known
  exact absurd known (by decide)

end WgPortal.WireGuard.StatusPublishing
