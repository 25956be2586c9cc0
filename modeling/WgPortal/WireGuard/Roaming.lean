import WgPortal.WireGuard.Cluster

/-! What is left of the status of a peer that moved to another node when the node that
it left marks it as disconnected. -/

namespace WgPortal.WireGuard.Roaming

open Domain Library Adapters Config System Cluster

/-- The session data in a status. -/
structure SameSession (old new : PeerStatus) : Prop where
  isConnected : new.isConnected = old.isConnected
  isPingable : new.isPingable = old.isPingable
  ownerNodeId : new.ownerNodeId = old.ownerNodeId
  lastHandshake : new.lastHandshake = old.lastHandshake
  bytesReceived : new.bytesReceived = old.bytesReceived
  bytesTransmitted : new.bytesTransmitted = old.bytesTransmitted

/-- What another node leaves of the status. -/
structure Cleared (old new : PeerStatus) : Prop where
  lastHandshake : new.lastHandshake = none
  connected : old.isConnected = true → new.isConnected = true ∧ new.isPingable = old.isPingable ∧
    new.ownerNodeId = old.ownerNodeId ∧ new.bytesReceived = 0 ∧ new.bytesTransmitted = 0
  offline : old.isConnected = false → new.isConnected = false ∧ new.ownerNodeId = ""

/-- The peer is connected, and there is no session data to lose. -/
structure Empty (row : PeerStatus) : Prop where
  isConnected : row.isConnected = true
  lastHandshake : row.lastHandshake = none
  bytesReceived : row.bytesReceived = 0
  bytesTransmitted : row.bytesTransmitted = 0

theorem SameSession.refl (row : PeerStatus) : SameSession row row := ⟨rfl, rfl, rfl, rfl, rfl, rfl⟩

theorem sameSession_iff_empty {row cur : PeerStatus} (named : row.ownerNodeId ≠ "")
    (cleared : Cleared row cur) : SameSession row cur ↔ Empty row := by
  constructor
  · intro same
    cases online : row.isConnected with
    | true =>
      have kept := cleared.connected online
      exact ⟨online, same.lastHandshake ▸ cleared.lastHandshake,
        same.bytesReceived ▸ kept.2.2.2.1, same.bytesTransmitted ▸ kept.2.2.2.2⟩
    | false =>
      have lost := (cleared.offline online).2
      exact absurd (same.ownerNodeId ▸ lost) named
  · intro empty
    have kept := cleared.connected empty.isConnected
    exact
      { isConnected := kept.1.trans empty.isConnected.symm
        isPingable := kept.2.1
        ownerNodeId := kept.2.2.1
        lastHandshake := cleared.lastHandshake.trans empty.lastHandshake.symm
        bytesReceived := kept.2.2.2.1.trans empty.bytesReceived.symm
        bytesTransmitted := kept.2.2.2.2.trans empty.bytesTransmitted.symm }

/-- Another node marks a status that still is as it was, or that a node has marked. -/
theorem cleared_mark {node clusterNodeId : String} {row cur : PeerStatus} {now : Time}
    (owned : row.ownerNodeId = node) (named : node ≠ "") (other : clusterNodeId ≠ node)
    (before : SameSession row cur ∨ Cleared row cur) :
    Cleared row (ownedUpdate clusterNodeId cur (disconnecting.apply now cur)) := by
  cases online : row.isConnected with
  | true =>
    have kept : cur.isConnected = true ∧ cur.isPingable = row.isPingable ∧
        cur.ownerNodeId = node := by
      rcases before with same | cleared
      · exact ⟨same.isConnected.trans online, same.isPingable, same.ownerNodeId.trans owned⟩
      · have kept := cleared.connected online
        exact ⟨kept.1, kept.2.1, kept.2.2.1.trans owned⟩
    have result : ownedUpdate clusterNodeId cur (disconnecting.apply now cur) =
        { disconnecting.apply now cur with
          isConnected := true
          isPingable := cur.isPingable
          ownerNodeId := node } := by
      simp [ownedUpdate, kept.1, kept.2.2, named, Ne.symm other]
    rw [result]
    refine ⟨rfl, fun _ => ⟨rfl, kept.2.1, owned.symm, ?_, ?_⟩, fun off => ?_⟩
    · simp [disconnecting, kept.1]
    · simp [disconnecting, kept.1]
    · exact absurd (online.symm.trans off) (by decide)
  | false =>
    have offline : cur.isConnected = false := by
      rcases before with same | cleared
      · exact same.isConnected.trans online
      · exact (cleared.offline online).1
    have result : ownedUpdate clusterNodeId cur (disconnecting.apply now cur) =
        { disconnecting.apply now cur with ownerNodeId := "" } := by
      simp only [ownedUpdate, offline, Bool.false_and, Bool.false_eq_true, if_false]
      split
      · rfl
      · rename_i free
        have none : cur.ownerNodeId = "" := by simpa [disconnecting] using free
        simp [disconnecting, none]
    rw [result]
    refine ⟨rfl, fun on => ?_, fun _ => ⟨rfl, rfl⟩⟩
    exact absurd (online.symm.trans on) (by decide)

/-- A peer is marked with the update function for peers that are gone. -/
def Marking (op : StatsOp) : Prop :=
  ∀ id f, op = .updatePeerStatus .disconnect id f → f = disconnecting

theorem marking_issues (c : Config) : Issues c Marking where
  reports := by
    rintro op reports x f rfl
    exact reports.elim
  reads := by
    rintro op reads x f rfl
    simp at reads
  claim := by
    intro wgPeer x f same
    cases same
  update := by
    intro wgPeer x f same
    cases same
  mark := by
    intro id x f same
    cases same
    rfl

theorem marking_collectPeerData (c : Config) (order : MapOrder PeerIdentifier)
    (cache : ActivePeers) : (collectPeerData c order cache).Uses Marking :=
  uses_collectPeerData (marking_issues c) order cache

variable {ι : Type} [DecidableEq ι] {cfg : ι → Config} {order : ι → MapOrder PeerIdentifier}

theorem marking_threads {s : State ι} {turns : List (ClusterTurn ι)} {p : ClusterPool ι}
    (run : runFrom (system cfg order).next (idle s) turns = some p) :
    Threads (Program.Uses Marking) p := by
  refine threads_run ?_ (fun _ _ _ _ _ uses => uses.2 _) run
  intro i call s prog t started
  simp only [system, Cluster.begin] at started
  split at started
  · rw [← (Prod.mk.inj (Option.some.inj started)).1]
    exact marking_collectPeerData ..
  · cases started

/-- Nobody else writes the status than the nodes that mark the peer, and none of these
is its owner. -/
def elsewhere (cfg : ι → Config) (id : PeerIdentifier) (node : String) :
    Guard ι (Env ι) Unit StatsOp Occasion (State ι) where
  env := fun _ e =>
    match e with
    | .savePeer _ _ other _ _ => other ≠ id
    | .deletePeers ids => id ∉ ids
    | .deletePeerStatus other => other ≠ id
    | _ => True
  start := fun _ _ _ => True
  step := fun _ i op _ =>
    match op with
    | .claimPeerStatus other _ _ => other ≠ id
    | .updatePeerStatus .refresh other _ => other ≠ id
    | .updatePeerStatus .disconnect other _ => other = id → nodeId cfg i ≠ node
    | _ => True

/-- A process commits that the peer is gone. -/
def Marks (id : PeerIdentifier) (p : ClusterPool ι) : ClusterTurn ι → Prop
  | .step i o => ∃ f rest, p.thread i = some (.call (.updatePeerStatus .disconnect id f) rest) ∧
      p.shared.life i = .running ∧ o.fault = none ∧ p.shared.db.peers.find id ≠ none
  | _ => False

theorem find_env {e : Env ι} {s t : State ι} {id : PeerIdentifier} {node : String}
    (allowed : (elsewhere cfg id node).env s e) (step : e.apply s = some t) :
    t.db.peerStatuses.find id = s.db.peerStatuses.find id := by
  cases e with
  | savePeer userId now other statusFault updateFunc =>
    rw [← Option.some.inj step]
    have ne : other ≠ id := allowed
    have created : (Orphans.createPeer s.db userId now other).peerStatuses = s.db.peerStatuses := by
      unfold Orphans.createPeer
      split <;> rfl
    have fresh : (PeerStatus.fresh other now).peerId ≠ id := ne
    simp only [Orphans.savePeer]
    split
    · rfl
    · split
      · simp [Db.upsertPeer, created]
      · simp only [Db.commitPeer, Db.ensurePeerStatus]
        split
        · split
          · rw [Table.find_upsert_of_ne _ fresh]
            simp [Db.upsertPeer, created]
          · simp [Db.upsertPeer, created]
        · rw [Table.find_upsert_of_ne _ fresh]
          simp [Db.upsertPeer, created]
  | deletePeers ids =>
    rw [← Option.some.inj step]
    have kept : id ∉ ids := allowed
    simp only [Db.deletePeers, Table.find_filter]
    cases found : s.db.peerStatuses.find id with
    | none => rfl
    | some row =>
      have key := Table.key_of_find found
      simp [key, kept]
  | deletePeerStatus other =>
    rw [← Option.some.inj step]
    exact Table.find_filter_of_ne _ (Ne.symm allowed)
  | device i iface peers => rw [← Option.some.inj step]
  | launch i =>
    simp only [Env.apply] at step
    split at step
    · rw [← Option.some.inj step]
    · cases step
  | stop i =>
    simp only [Env.apply] at step
    split at step
    · rw [← Option.some.inj step]
    · cases step
  | quiet isQuiet => rw [← Option.some.inj step]

omit [DecidableEq ι] in
theorem not_marks {p : ClusterPool ι} {i : ι} {o : Occasion} {op : StatsOp}
    {rest : op.Res → StatsProgram (ActivePeers × Bool)} {id : PeerIdentifier}
    (here : p.thread i = some (.call op rest))
    (other : ∀ f, op ≠ .updatePeerStatus .disconnect id f) : ¬ Marks id p (.step i o) := by
  rintro ⟨f, rest', same, -⟩
  have ops := Option.some.inj (here.symm.trans same)
  injection ops with marks
  exact other f marks

/-- What another node makes of a status. -/
def Marked (cfg : ι → Config) (node : String) (old new : Option PeerStatus) : Prop :=
  ∃ i now cur, nodeId cfg i ≠ node ∧ (∀ row, old = some row → cur = row) ∧
    new = some (ownedUpdate (nodeId cfg i) cur (disconnecting.apply now cur))

/-- Under the guard a turn leaves the status as it is, or marks it. -/
theorem find_next {p q : ClusterPool ι} {turn : ClusterTurn ι} {id : PeerIdentifier}
    {node : String} (threads : Threads (Program.Uses Marking) p)
    (allowed : (elsewhere cfg id node).turn p turn)
    (step : (system cfg order).next p turn = some q) :
    ¬ Marks id p turn ∧ q.shared.db.peerStatuses.find id = p.shared.db.peerStatuses.find id ∨
      Marks id p turn ∧ Marked cfg node (p.shared.db.peerStatuses.find id)
        (q.shared.db.peerStatuses.find id) := by
  cases turn with
  | env e =>
    obtain ⟨t, changed, rfl⟩ := Option.map_eq_some_iff.mp step
    exact .inl ⟨fun marks => marks, find_env allowed changed⟩
  | start i call =>
    simp only [next] at step
    split at step
    · cases step
    · obtain ⟨⟨prog, t⟩, started, rfl⟩ := Option.map_eq_some_iff.mp step
      simp only [system, Cluster.begin] at started
      split at started
      · rw [← (Prod.mk.inj (Option.some.inj started)).2]
        exact .inl ⟨fun marks => marks, rfl⟩
      · cases started
  | step i o =>
    simp only [next] at step
    split at step
    · cases step
    · rename_i collected here
      rw [← Option.some.inj step]
      refine .inl ⟨?_, ?_⟩
      · rintro ⟨f, rest, same, -⟩
        have ops := Option.some.inj (here.symm.trans same)
        cases ops
      · simp only [system, Cluster.finish]
        split <;> rfl
    · rename_i op rest here
      rw [← Option.some.inj step]
      simp only [system, perform]
      by_cases running : p.shared.life i = .running
      · rw [if_pos running]
        have fits := allowed op rest here
        have others : about op ≠ some id → ¬ Marks id p (.step i o) ∧
            (storeStatus p.shared.db (op.row (cfg i) o p.shared.db)).peerStatuses.find id =
              p.shared.db.peerStatuses.find id := by
          intro other
          refine ⟨not_marks here fun f same => other ?_, find_storeStatus_of_ne other⟩
          rw [same, about]
        cases op with
        | claimPeerStatus other owner f =>
          exact .inl (others fun same => fits (Option.some.inj same))
        | updatePeerStatus purpose other f =>
          by_cases same : other = id
          · subst same
            cases purpose with
            | refresh => exact absurd rfl fits
            | disconnect =>
              have marking := (threads i _ here).1 other f rfl
              subst marking
              by_cases committed : o.fault = none ∧ p.shared.db.peers.find other ≠ none
              · have wrote : (StatsOp.updatePeerStatus .disconnect other disconnecting).row (cfg i) o
                    p.shared.db = some (ownedUpdate (nodeId cfg i)
                      (readStatus p.shared.db other o.began)
                      (disconnecting.apply o.now (readStatus p.shared.db other o.began))) :=
                  row_eq_some.mpr (.update committed.1 committed.2)
                have target := (row_eq_some.mp wrote).peerId
                refine .inr ⟨⟨disconnecting, rest, here, running, committed⟩, i, o.now,
                  readStatus p.shared.db other o.began, fits rfl, fun row found => ?_, ?_⟩
                · rw [readStatus, found, Option.getD_some]
                · rw [wrote]
                  have stored := @find_storeStatus_self p.shared.db (ownedUpdate (nodeId cfg i)
                      (readStatus p.shared.db other o.began)
                      (disconnecting.apply o.now (readStatus p.shared.db other o.began)))
                  rwa [← Option.some.inj target] at stored
              · refine .inl ⟨fun marks => committed marks.choose_spec.choose_spec.2.2, ?_⟩
                cases wrote : (StatsOp.updatePeerStatus .disconnect other disconnecting).row (cfg i)
                    o p.shared.db with
                | none => rfl
                | some row =>
                  cases row_eq_some.mp wrote with
                  | update unfailed stored => exact absurd ⟨unfailed, stored⟩ committed
          · exact .inl (others fun here => same (Option.some.inj here))
        | _ => exact .inl (others (by simp [about]))
      · rw [if_neg running]
        refine .inl ⟨?_, rfl⟩
        rintro ⟨_, _, _, live, _⟩
        exact running live

omit [DecidableEq ι] in
/-- Of the status, a node that marks the peer leaves this. -/
theorem Marked.cleared {row cur : PeerStatus} {old new : Option PeerStatus}
    (marked : Marked cfg row.ownerNodeId old new) (named : row.ownerNodeId ≠ "")
    (found : old = some cur) (before : SameSession row cur ∨ Cleared row cur) :
    ∃ cur', new = some cur' ∧ Cleared row cur' := by
  obtain ⟨i, now, read, other, same, rfl⟩ := marked
  rw [same cur found]
  exact ⟨_, rfl, cleared_mark rfl named other before⟩

variable {s : State ι} {before turns : List (ClusterTurn ι)} {p q : ClusterPool ι}
  {row cur : PeerStatus} {id : PeerIdentifier}

theorem reached_next {turn : ClusterTurn ι}
    (reached : runFrom (system cfg order).next (idle s) before = some p)
    (step : (system cfg order).next p turn = some q) :
    runFrom (system cfg order).next (idle s) (before ++ [turn]) = some q := by
  simp only [runFrom_append, reached, Option.bind_some, runFrom, step]

/-- What was cleared stays so. -/
theorem cleared_run (reached : runFrom (system cfg order).next (idle s) before = some p)
    (run : runFrom (system cfg order).next p turns = some q)
    (moved : Guarded (system cfg order).next (elsewhere cfg id row.ownerNodeId).turn p turns)
    (named : row.ownerNodeId ≠ "") (found : p.shared.db.peerStatuses.find id = some cur)
    (cleared : Cleared row cur) :
    ∃ cur', q.shared.db.peerStatuses.find id = some cur' ∧ Cleared row cur' := by
  induction turns generalizing before p cur with
  | nil =>
    rw [← Option.some.inj run]
    exact ⟨cur, found, cleared⟩
  | cons turn turns ih =>
    obtain ⟨p', step, rest⟩ := runFrom_cons run
    have reached' := reached_next reached step
    rcases find_next (marking_threads reached) moved.1 step with ⟨_, same⟩ | ⟨_, marked⟩
    · exact ih reached' rest (moved.2 p' step) (same.trans found) cleared
    · obtain ⟨cur', found', cleared'⟩ := marked.cleared named found (.inr cleared)
      exact ih reached' rest (moved.2 p' step) found' cleared'

/-- The status that a node wrote is kept until another node marks the peer. -/
theorem kept_or_cleared (reached : runFrom (system cfg order).next (idle s) before = some p)
    (run : runFrom (system cfg order).next p turns = some q)
    (moved : Guarded (system cfg order).next (elsewhere cfg id row.ownerNodeId).turn p turns)
    (named : row.ownerNodeId ≠ "") (found : p.shared.db.peerStatuses.find id = some row) :
    Guarded (system cfg order).next (fun p turn => ¬ Marks id p turn) p turns ∧
        q.shared.db.peerStatuses.find id = some row ∨
      ¬ Guarded (system cfg order).next (fun p turn => ¬ Marks id p turn) p turns ∧
        ∃ cur, q.shared.db.peerStatuses.find id = some cur ∧ Cleared row cur := by
  induction turns generalizing before p with
  | nil =>
    rw [← Option.some.inj run]
    exact .inl ⟨trivial, found⟩
  | cons turn turns ih =>
    obtain ⟨p', step, rest⟩ := runFrom_cons run
    have reached' := reached_next reached step
    rcases find_next (marking_threads reached) moved.1 step with ⟨quiet, same⟩ | ⟨marks, marked⟩
    · rcases ih reached' rest (moved.2 p' step) (same.trans found) with
        ⟨never, kept⟩ | ⟨once, cleared⟩
      · refine .inl ⟨⟨quiet, fun other step' => ?_⟩, kept⟩
        rw [← Option.some.inj (step.symm.trans step')]
        exact never
      · exact .inr ⟨fun never => once (never.2 p' step), cleared⟩
    · obtain ⟨cur, found', cleared⟩ := marked.cleared named found (.inl (.refl row))
      exact .inr ⟨fun never => never.1 marks,
        cleared_run reached' rest (moved.2 p' step) named found' cleared⟩

/-- In any run of the collectors, a status of a node is kept as the node wrote it, while
only others mark the peer, if and only if none of them does, or the peer is connected
without a handshake and traffic. -/
theorem session_kept_iff (reached : runFrom (system cfg order).next (idle s) before = some p)
    (run : runFrom (system cfg order).next p turns = some q)
    (moved : Guarded (system cfg order).next (elsewhere cfg id row.ownerNodeId).turn p turns)
    (named : row.ownerNodeId ≠ "") (found : p.shared.db.peerStatuses.find id = some row) :
    (∃ cur, q.shared.db.peerStatuses.find id = some cur ∧ SameSession row cur) ↔
      Guarded (system cfg order).next (fun p turn => ¬ Marks id p turn) p turns ∨ Empty row := by
  rcases kept_or_cleared reached run moved named found with ⟨never, kept⟩ | ⟨once, cur, now, cleared⟩
  · exact ⟨fun _ => .inl never, fun _ => ⟨row, kept, .refl row⟩⟩
  · have same := sameSession_iff_empty named cleared
    constructor
    · rintro ⟨other, found', session⟩
      rw [← Option.some.inj (now.symm.trans found')] at session
      exact .inr (same.mp session)
    · rintro (never | empty)
      · exact absurd never once
      · exact ⟨cur, now, same.mpr empty⟩

instance (id : PeerIdentifier) (node : String) (s : State ι) :
    ∀ e : Env ι, Decidable ((elsewhere cfg id node).env s e)
  | .savePeer _ _ other _ _ => inferInstanceAs (Decidable (other ≠ id))
  | .deletePeers ids => inferInstanceAs (Decidable (id ∉ ids))
  | .deletePeerStatus other => inferInstanceAs (Decidable (other ≠ id))
  | .device .. => isTrue trivial
  | .launch _ => isTrue trivial
  | .stop _ => isTrue trivial
  | .quiet _ => isTrue trivial

instance (id : PeerIdentifier) (node : String) (s : State ι) (i : ι) (call : Unit) :
    Decidable ((elsewhere cfg id node).start s i call) := isTrue trivial

instance (id : PeerIdentifier) (node : String) (s : State ι) (i : ι) (o : Occasion) :
    ∀ op : StatsOp, Decidable ((elsewhere cfg id node).step s i op o)
  | .claimPeerStatus other _ _ => inferInstanceAs (Decidable (other ≠ id))
  | .updatePeerStatus .refresh other _ => inferInstanceAs (Decidable (other ≠ id))
  | .updatePeerStatus .disconnect other _ =>
    inferInstanceAs (Decidable (other = id → nodeId cfg i ≠ node))
  | .timeNow => isTrue trivial
  | .getAllInterfaces => isTrue trivial
  | .getPeers _ => isTrue trivial
  | .getPeer .. => isTrue trivial
  | .updatePeerMetricsValues .. => isTrue trivial
  | .removePeerMetricsByID _ => isTrue trivial
  | .registerPeerMetrics _ => isTrue trivial
  | .publish .. => isTrue trivial

/-- Process `false` is the one of `node-a`, process `true` that of `node-b`. -/
def twoNodes (i : Bool) : Config := StatusOwnership.nodeConfig (if i then "node-b" else "node-a")

def sampleSystem : System Bool (Env Bool) Unit StatsOp StatsOp.Res Occasion (ActivePeers × Bool)
    (State Bool) :=
  system twoNodes fun _ => MapOrder.listed

/-- The peer connects to `node-a`, moves to `node-b`, and `node-b` claims it. -/
def moves : List (ClusterTurn Bool) :=
  [.env (.launch false), .env (.launch true), handshake false hour] ++ cycle false 8 (hour + minute) ++
    handshake true (2 * hour) :: cycle true 8 (2 * hour + minute)

def sampleRow (p : ClusterPool Bool) : Option (String × Option Time × ℕ × ℕ) :=
  (p.shared.db.peerStatuses.find "p").map fun row =>
    (row.ownerNodeId, row.lastHandshake, row.bytesReceived, row.bytesTransmitted)

/-- `node-a` finds that the peer is gone. -/
def marked : List (ClusterTurn Bool) := cycle false 6 (2 * hour + 2 * minute)

/-- The run, up to the claim of `node-b` and from there on. -/
theorem sampleRun : ∃ (p q : ClusterPool Bool) (row : PeerStatus),
    runFrom sampleSystem.next (idle (initial sampleDb fun _ _ => [])) moves = some p ∧
      runFrom sampleSystem.next p marked = some q ∧
      p.shared.db.peerStatuses.find "p" = some row ∧ row.ownerNodeId = "node-b" ∧
      Guarded sampleSystem.next (elsewhere twoNodes "p" "node-b").turn p marked ∧
      sampleRow p = some ("node-b", some (2 * hour), 100, 200) ∧
      sampleRow q = some ("node-b", none, 0, 0) := by
  have evaluated : (runFrom sampleSystem.next (idle (initial sampleDb fun _ _ => [])) moves).map
      (fun p => decide (sampleRow p = some ("node-b", some (2 * hour), 100, 200) ∧
        Guarded sampleSystem.next (elsewhere twoNodes "p" "node-b").turn p marked ∧
        (runFrom sampleSystem.next p marked).map sampleRow = some (some ("node-b", none, 0, 0)))) =
      some true := by
    decide +kernel
  obtain ⟨p, run, same⟩ := Option.map_eq_some_iff.mp evaluated
  obtain ⟨first, guarded, last⟩ := of_decide_eq_true same
  obtain ⟨q, later, cleared⟩ := Option.map_eq_some_iff.mp last
  obtain ⟨row, found, data⟩ := Option.map_eq_some_iff.mp first
  exact ⟨p, q, row, run, later, found, (Prod.mk.inj data).1, guarded, first, cleared⟩

/-- There the peer was marked, and there was data to lose. -/
theorem sampleRun_session_kept_iff : ∃ (p q : ClusterPool Bool) (row : PeerStatus),
    runFrom sampleSystem.next (idle (initial sampleDb fun _ _ => [])) moves = some p ∧
      runFrom sampleSystem.next p marked = some q ∧
      ¬ (Guarded sampleSystem.next (fun p turn => ¬ Marks "p" p turn) p marked ∨ Empty row) := by
  obtain ⟨p, q, row, reached, run, found, owner, guarded, first, last⟩ := sampleRun
  refine ⟨p, q, row, reached, run, fun condition => ?_⟩
  rw [← owner] at guarded
  obtain ⟨cur, now, same⟩ :=
    (session_kept_iff reached run guarded (by simp [owner]) found).mpr condition
  simp only [sampleRow, found, now, Option.map_some, Option.some.injEq, Prod.mk.injEq] at first last
  have lost := same.bytesReceived
  rw [first.2.2.1, last.2.2.1] at lost
  cases lost

/-- A late mark of the node that the peer left wipes what its owner wrote. -/
theorem lateMark_not_kept : ∃ (p q : ClusterPool Bool) (row cur : PeerStatus),
    runFrom sampleSystem.next (idle (initial sampleDb fun _ _ => [])) moves = some p ∧
      runFrom sampleSystem.next p marked = some q ∧
      p.shared.db.peerStatuses.find "p" = some row ∧ row.ownerNodeId = "node-b" ∧
      q.shared.db.peerStatuses.find "p" = some cur ∧
      row.lastHandshake = some (2 * hour) ∧ cur.lastHandshake = none ∧
      ¬ SameSession row cur := by
  obtain ⟨p, q, row, reached, run, found, owner, _, first, last⟩ := sampleRun
  obtain ⟨cur, now, _⟩ := Option.map_eq_some_iff.mp last
  refine ⟨p, q, row, cur, reached, run, found, owner, now, ?_⟩
  simp only [sampleRow, found, now, Option.map_some, Option.some.injEq, Prod.mk.injEq] at first last
  refine ⟨first.2.1, last.2.1, fun same => ?_⟩
  have lost := same.bytesReceived
  rw [first.2.2.1, last.2.2.1] at lost
  cases lost

end WgPortal.WireGuard.Roaming
