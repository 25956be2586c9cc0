import WgPortal.Adapters.StatusOwnership

/-! Whether the statuses of offline peers are free of owners, in any interleaving of
the transactions on the statuses with peers that are saved and deleted. -/

namespace WgPortal.Adapters.OfflineStatuses

open Domain Library Config System
open StatusProgram (issue)
open StatusOwnership (Call State Moment StatusPool exec initial setConnected)

variable {ι : Type}

/-- A peer that is offline has no owner. -/
def Settled (row : PeerStatus) : Prop := row.isConnected = false → row.ownerNodeId = ""

/-- A peer may be saved under another identifier than the one asked for. -/
inductive Env where
  | savePeer (userId : UserIdentifier) (now : Time) (id : PeerIdentifier) (peer : Peer)
  | other (e : StatusOwnership.Env)

/-- The status of `id` is written, unless it is there and the identifier stays. -/
def Env.apply (e : Env) (s : State ι) : Option (State ι) :=
  match e with
  | .savePeer userId now id peer =>
    if s.locked id = none ∨ peer.identifier = id ∧ s.db.peerStatuses.find id ≠ none then
      some { s with db := s.db.commitPeer userId now id peer }
    else none
  | .other e => e.apply s

/-- Who claims a peer finds it connected, and a batch that finds a peer offline
names no owner. -/
def Call.Settles : Call → Prop
  | .update .. => True
  | .claim _ ownerNodeId updateFunc => ∀ old new, ownerNodeId ≠ "" → old.ownerNodeId = ownerNodeId →
      updateFunc.apply old = .ok new → new.isConnected = true
  | .batch updates => ∀ attempt id updateFunc, (id, updateFunc) ∈ updates attempt →
      ∀ old new, old.ownerNodeId = "" → updateFunc.apply old = .ok new → Settled new

/-- Operations that write settled rows only. -/
def Settling : StatusOp → Prop
  | .firstOrCreate defaults => Settled defaults
  | .save rows => ∀ row ∈ rows, Settled row
  | _ => True

theorem settled_fresh (id : PeerIdentifier) (now : Time) : Settled (PeerStatus.fresh id now) :=
  fun _ => rfl

theorem settled_ownedUpdate (clusterNodeId : String) (old new : PeerStatus) :
    Settled (ownedUpdate clusterNodeId old new) := by
  have cleared : ∀ status : PeerStatus,
      Settled (if !status.isConnected && status.ownerNodeId ≠ "" then
        { status with ownerNodeId := "" } else status) := by
    intro status offline
    split
    · rfl
    · rename_i kept
      rw [if_neg kept] at offline
      simpa [offline] using kept
  exact cleared _

theorem settling_issue (op : StatusOp) (settling : Settling op) : (issue op).Uses Settling :=
  ⟨settling, fun _ => trivial⟩

theorem settling_transaction {body : StatusProgram (Except Error Unit)}
    (uses : body.Uses Settling) : (transaction body).Uses Settling := by
  refine (settling_issue .begin trivial).bind fun began => ?_
  cases began with
  | error err => trivial
  | ok =>
    refine uses.bind fun result => ?_
    cases result with
    | error err => exact (settling_issue .rollback trivial).bind fun _ => trivial
    | ok => exact settling_issue .commit trivial

theorem settling_retryOnConflict {failure : String} {body : ℕ → StatusProgram (Except Error Unit)}
    (uses : ∀ attempt, (body attempt).Uses Settling) (attempt retries : ℕ) :
    (retryOnConflict failure body attempt retries).Uses Settling := by
  induction retries generalizing attempt with
  | zero =>
    refine (settling_transaction (uses attempt)).bind fun result => ?_
    cases result <;> trivial
  | succ retries ih =>
    refine (settling_transaction (uses attempt)).bind fun result => ?_
    cases result with
    | ok => trivial
    | error err =>
      simp only
      split
      · trivial
      · refine (settling_issue .wait trivial).bind fun waited => ?_
        cases waited with
        | some ctxErr => trivial
        | none => exact ih (attempt + 1)

theorem settling_getOrCreatePeerStatus (id : PeerIdentifier) :
    (getOrCreatePeerStatus id).Uses Settling := by
  refine (settling_issue .timeNow trivial).bind fun now => ?_
  refine (settling_issue (.selectForUpdate id) trivial).bind fun answer => ?_
  cases answer with
  | ok status => trivial
  | error err =>
    simp only
    split
    · trivial
    · refine (settling_issue (.countPeers id) trivial).bind fun count => ?_
      split
      · trivial
      · trivial
      · have fresh : Settling (.firstOrCreate (PeerStatus.fresh id now)) := settled_fresh id now
        refine (settling_issue _ fresh).bind fun created => ?_
        cases created with
        | error err => trivial
        | ok status =>
          refine (settling_issue (.selectForUpdate id) trivial).bind fun answer => ?_
          cases answer <;> trivial

theorem settling_save {row : PeerStatus} (settled : Settled row) :
    (issue (.save [row])).Uses Settling := by
  refine settling_issue _ fun other listed => ?_
  rw [List.mem_singleton.mp listed]
  exact settled

theorem settling_updateOnce (cfg : Config) (id : PeerIdentifier) (updateFunc : StatusUpdate) :
    (updateOnce cfg id updateFunc).Uses Settling := by
  refine (settling_issue (.countPeers id) trivial).bind fun count => ?_
  split
  · trivial
  · trivial
  · refine (settling_getOrCreatePeerStatus id).bind fun answer => ?_
    cases answer with
    | error err => trivial
    | ok old =>
      simp only
      split
      · trivial
      · exact settling_save (settled_ownedUpdate _ _ _)

theorem settling_claimOnce {id : PeerIdentifier} {ownerNodeId : String} {updateFunc : StatusUpdate}
    (named : ownerNodeId ≠ "") (settles : Call.Settles (.claim id ownerNodeId updateFunc)) :
    (claimOnce id ownerNodeId updateFunc).Uses Settling := by
  refine (settling_getOrCreatePeerStatus id).bind fun answer => ?_
  cases answer with
  | error err => trivial
  | ok old =>
    refine (settling_issue .timeNow trivial).bind fun now => ?_
    split
    · trivial
    · rename_i new updated
      have connected : new.isConnected = true := settles _ new named rfl updated
      refine settling_save fun offline => ?_
      exact absurd (connected.symm.trans offline) (by decide)

/-- A batch goes on with the new statuses of peers without an owner. -/
theorem settling_updatedStatuses {updates : List (PeerIdentifier × StatusUpdate)}
    (settles : ∀ id updateFunc, (id, updateFunc) ∈ updates → ∀ old new, old.ownerNodeId = "" →
      updateFunc.apply old = .ok new → Settled new)
    {next : Except Error (List PeerStatus) → StatusProgram (Except Error Unit)}
    (rest : ∀ result, (∀ rows, result = .ok rows → ∀ row ∈ rows, Settled row) →
      (next result).Uses Settling) :
    (updatedStatuses updates >>= next).Uses Settling := by
  induction updates generalizing next with
  | nil =>
    refine rest _ fun rows h => ?_
    rw [← Except.ok.inj h]
    exact fun row none => absurd none List.not_mem_nil
  | cons first updates ih =>
    have failed : ∀ err, (next (.error err)).Uses Settling := fun err => rest _ fun _ h => by cases h
    have others := fun id updateFunc listed => settles id updateFunc (List.mem_cons_of_mem first listed)
    rw [updatedStatuses, Program.bind_assoc]
    refine (settling_issue (.countPeers first.1) trivial).bind fun count => ?_
    split
    · exact failed _
    · exact ih others rest
    · rw [Program.bind_assoc]
      refine (settling_getOrCreatePeerStatus first.1).bind fun answer => ?_
      cases answer with
      | error err => exact failed err
      | ok old =>
        simp only
        split
        · exact ih others rest
        · rename_i unowned
          split
          · exact failed _
          · rename_i new updated
            have settled : Settled new :=
              settles first.1 first.2 List.mem_cons_self old new (by simpa using unowned) updated
            rw [Program.bind_assoc]
            refine ih others fun result rows => ?_
            cases result with
            | error err => exact failed err
            | ok rest' =>
              refine rest _ fun all h row hrow => ?_
              rw [← Except.ok.inj h] at hrow
              rcases List.mem_cons.mp hrow with rfl | before
              · exact settled
              · exact rows rest' rfl row before

theorem settling_batchOnce {updates : List (PeerIdentifier × StatusUpdate)}
    (settles : ∀ id updateFunc, (id, updateFunc) ∈ updates → ∀ old new, old.ownerNodeId = "" →
      updateFunc.apply old = .ok new → Settled new) :
    (batchOnce updates).Uses Settling := by
  refine settling_updatedStatuses settles fun result settled => ?_
  split
  · trivial
  · trivial
  · exact settling_issue (.save _) (settled _ rfl)

theorem settling_program {call : Call} (settles : Call.Settles call) :
    call.program.Uses Settling := by
  cases call with
  | update cfg id updateFunc =>
    exact settling_retryOnConflict (fun _ => settling_updateOnce cfg id updateFunc) 0 9
  | claim id ownerNodeId updateFunc =>
    simp only [Call.program, claimPeerStatus]
    split
    · trivial
    · rename_i named
      exact settling_retryOnConflict (fun _ => settling_claimOnce named settles) 0 9
  | batch updates =>
    simp only [Call.program, batchUpdatePeerStatuses]
    split
    · trivial
    · exact settling_retryOnConflict (fun attempt => settling_batchOnce (settles attempt)) 0 4

/-- All rows are settled, those that are stored and those to be committed. -/
structure AllSettled (s : State ι) : Prop where
  stored : ∀ row ∈ s.db.peerStatuses.rows, Settled row
  written : ∀ i, ∀ row ∈ (s.written i).rows, Settled row

def contract (ι : Type) : Contract ι (State ι) where
  inv := AllSettled
  rely := fun _ _ _ => True
  refl := fun _ _ => trivial
  trans := fun _ _ _ _ _ _ => trivial

theorem allSettled_commitPeer {s : State ι} (settled : AllSettled s) (userId : UserIdentifier)
    (now : Time) (id : PeerIdentifier) (peer : Peer) :
    AllSettled { s with db := s.db.commitPeer userId now id peer } := by
  have reset : ∀ db : Db, (∀ row ∈ db.peerStatuses.rows, Settled row) →
      ∀ row ∈ (db.peerStatuses.upsert (PeerStatus.fresh id now)).rows, Settled row := by
    intro db all row listed
    rcases Table.mem_upsert.mp listed with rfl | ⟨before, _⟩
    · exact settled_fresh id now
    · exact all row before
  refine ⟨?_, settled.written⟩
  simp only [Db.commitPeer, Db.ensurePeerStatus]
  split
  · split
    · exact reset _ settled.stored
    · exact settled.stored
  · exact reset _ settled.stored

theorem allSettled_delete {s : State ι} (settled : AllSettled s) {db : Db}
    {keep : PeerStatus → Bool} (statuses : db.peerStatuses = s.db.peerStatuses.filter keep) :
    AllSettled { s with db := db } := by
  refine ⟨fun row listed => ?_, settled.written⟩
  have kept : row ∈ (s.db.peerStatuses.filter keep).rows := statuses ▸ listed
  exact settled.stored row (List.mem_filter.mp kept).1

theorem allSettled_env {e : Env} {s t : State ι} (settled : AllSettled s)
    (step : e.apply s = some t) : AllSettled t := by
  cases e with
  | savePeer userId now id peer =>
    simp only [Env.apply] at step
    split at step
    · rw [← Option.some.inj step]
      exact allSettled_commitPeer settled userId now id peer
    · cases step
  | other e =>
    cases e with
    | savePeer userId now peer =>
      simp only [Env.apply, StatusOwnership.Env.apply] at step
      split at step
      · rw [← Option.some.inj step]
        exact allSettled_commitPeer settled userId now peer.identifier peer
      · cases step
    | deletePeer id | deleteStatus id =>
      simp only [Env.apply, StatusOwnership.Env.apply] at step
      split at step
      · rw [← Option.some.inj step]
        exact allSettled_delete settled rfl
      · cases step

theorem mem_upsertAll_settled {t : Table PeerStatus.peerId} {rows : List PeerStatus}
    (table : ∀ row ∈ t.rows, Settled row) (new : ∀ row ∈ rows, Settled row) :
    ∀ row ∈ (t.upsertAll rows).rows, Settled row := by
  intro row listed
  rcases StatusOwnership.mem_upsertAll listed with here | before
  · exact new row here
  · exact table row before

variable [DecidableEq ι]

theorem allSettled_write {s : State ι} (settled : AllSettled s) {i : ι} {rows : List PeerStatus}
    (new : ∀ row ∈ rows, Settled row) :
    AllSettled { s with toStatusSessions := s.write i rows } := by
  refine ⟨settled.stored, fun j => ?_⟩
  by_cases same : j = i
  · subst same
    simp only [StatusSessions.write, Function.update_self]
    exact mem_upsertAll_settled (settled.written j) new
  · simp only [StatusSessions.write, Function.update_of_ne same]
    exact settled.written j

theorem allSettled_rollback {s : State ι} (settled : AllSettled s) (i : ι) :
    AllSettled { s with toStatusSessions := s.rollback i } := by
  refine ⟨settled.stored, fun j row listed => ?_⟩
  by_cases same : j = i
  · subst same
    simp only [StatusSessions.rollback, Function.update_self] at listed
    cases listed
  · simp only [StatusSessions.rollback, Function.update_of_ne same] at listed
    exact settled.written j row listed

theorem allSettled_commit {s : State ι} (settled : AllSettled s) (i : ι) :
    AllSettled { s with toStatusSessions := s.commit i } :=
  ⟨mem_upsertAll_settled settled.stored (settled.written i), (allSettled_rollback settled i).written⟩

theorem allSettled_exec {s : State ι} (settled : AllSettled s) {op : StatusOp}
    (settling : Settling op) (i : ι) (m : Moment) : AllSettled (exec i op m s).2 := by
  cases op with
  | timeNow => rwa [StatusOwnership.exec_timeNow]
  | wait => rwa [StatusOwnership.exec_wait]
  | begin => rwa [StatusOwnership.exec_begin]
  | countPeers id => rwa [StatusOwnership.exec_countPeers]
  | selectForUpdate id =>
    rcases StatusOwnership.exec_selectForUpdate i id m s with ⟨err, failed⟩ | ⟨row, _, _, read⟩
    · rwa [failed]
    · rw [read]
      exact ⟨settled.stored, settled.written⟩
  | firstOrCreate defaults =>
    rcases StatusOwnership.exec_firstOrCreate i defaults m s with same | ⟨_, _, created⟩
    · rwa [same]
    · rw [created]
      refine allSettled_write settled fun row listed => ?_
      rw [List.mem_singleton.mp listed]
      exact settling
  | save rows =>
    rcases StatusOwnership.exec_save i rows m s with same | ⟨_, saved⟩
    · rwa [same]
    · rw [saved]
      exact allSettled_write settled settling
  | commit =>
    rcases StatusOwnership.exec_commit i m s with done | done <;> rw [done]
    · exact allSettled_rollback settled i
    · exact allSettled_commit settled i
  | rollback =>
    rw [StatusOwnership.exec_rollback]
    exact allSettled_rollback settled i

def system (ι : Type) [DecidableEq ι] :
    System ι Env Call StatusOp StatusOp.Res Moment (Except Error Unit) (State ι) where
  exec := exec
  env := Env.apply
  start := (StatusOwnership.system ι).start
  finish := (StatusOwnership.system ι).finish

def guard : Guard ι Env Call StatusOp Moment (State ι) where
  env := fun _ _ => True
  start := fun _ _ call => Call.Settles call
  step := fun _ _ _ _ => True

theorem upheld : Contract.Upheld (system ι) (contract ι) guard where
  env := fun _ _ _ settled _ step => ⟨allSettled_env settled step, fun _ => trivial⟩
  start := by
    intro i call s prog t settled settles step
    simp only [system, StatusOwnership.system] at step
    split at step
    · cases step
    · obtain ⟨rfl, rfl⟩ := Prod.mk.inj (Option.some.inj step)
      refine ⟨⟨⟨settled.stored, settled.written⟩, fun _ _ => trivial⟩, ?_⟩
      have sound : (contract ι).Sound (system ι) guard i (fun _ _ => True) call.program
          { s with running := Function.update s.running i (some call) } := by
        refine Contract.Sound.of_uses (fun _ _ _ _ => trivial) ?_ (settling_program settles) trivial
        exact fun op u m settling settled _ _ => ⟨⟨allSettled_exec settled settling i m,
          fun _ _ => trivial⟩, trivial⟩
      exact sound.mono fun result u settled _ =>
        ⟨⟨settled.stored, settled.written⟩, fun _ _ => trivial⟩

/-- An offline peer has no owner in any state that is reached, if claims find their
peers connected and batches name no owner. -/
theorem guarded_run_settled {db : Db} (start : ∀ row ∈ db.peerStatuses.rows, Settled row)
    {turns : List (Turn ι Env Call Moment)} {q : StatusPool ι}
    (guarded : Guarded (system ι).next guard.turn (idle (initial db)) turns)
    (run : runFrom (system ι).next (idle (initial db)) turns = some q) :
    ∀ row ∈ q.shared.db.peerStatuses.rows, Settled row := by
  have initially : AllSettled (initial db : State ι) := ⟨start, fun _ _ listed => by cases listed⟩
  exact (Contract.preserved upheld initially guarded run).stored

theorem settled_sampleDb : ∀ row ∈ StatusOwnership.sampleDb.peerStatuses.rows, Settled row := by
  intro row listed
  rw [List.mem_singleton.mp listed]
  exact settled_fresh "p" 0

/-- `node-a` claims the peer with the given outcome. -/
def claimedAs (isConnected : Bool) : List (Turn ℕ Env Call Moment) :=
  Turn.start 0 (.claim "p" "node-a" (setConnected isConnected)) ::
    List.replicate 7 (.step 0 ⟨0, none⟩)

/-- The owner finds the peer offline later on. -/
def leftBy : List (Turn ℕ Env Call Moment) :=
  claimedAs true ++ Turn.start 0 (.update (StatusOwnership.nodeConfig "node-a") "p" (setConnected false)) ::
    List.replicate 7 (.step 0 ⟨0, none⟩)

theorem leftBy_settled :
    ∃ q : StatusPool ℕ, runFrom (system ℕ).next (idle (initial StatusOwnership.sampleDb)) leftBy =
        some q ∧ StatusOwnership.sampleState q = some (false, "") ∧
      ∀ row ∈ q.shared.db.peerStatuses.rows, Settled row := by
  have guarded : Guarded (system ℕ).next guard.turn (idle (initial StatusOwnership.sampleDb))
      leftBy := by
    refine guarded_of_mem (fun turn listed p => ?_) _
    simp only [leftBy, claimedAs, List.cons_append, List.mem_cons, List.mem_append,
      List.mem_replicate] at listed
    rcases listed with rfl | ⟨-, rfl⟩ | rfl | ⟨-, rfl⟩
    · intro old new _ _ updated
      rw [← Except.ok.inj updated]
    · exact fun _ _ _ => trivial
    · trivial
    · exact fun _ _ _ => trivial
  have final : (runFrom (system ℕ).next (idle (initial StatusOwnership.sampleDb)) leftBy).map
      StatusOwnership.sampleState = some (some (false, "")) := by decide +kernel
  obtain ⟨q, run, state⟩ := Option.map_eq_some_iff.mp final
  exact ⟨q, run, state, guarded_run_settled settled_sampleDb guarded run⟩

/-- A claim keeps its node as the owner of a peer that it finds offline. -/
theorem claimedOffline_not_settled :
    (∀ row ∈ StatusOwnership.sampleDb.peerStatuses.rows, Settled row) ∧
      ∃ q : StatusPool ℕ, runFrom (system ℕ).next (idle (initial StatusOwnership.sampleDb))
          (claimedAs false) = some q ∧ ∃ row ∈ q.shared.db.peerStatuses.rows, ¬ Settled row := by
  have final : (runFrom (system ℕ).next (idle (initial StatusOwnership.sampleDb))
      (claimedAs false)).map StatusOwnership.sampleState = some (some (false, "node-a")) := by
    decide +kernel
  obtain ⟨q, run, state⟩ := Option.map_eq_some_iff.mp final
  obtain ⟨row, found, same⟩ := Option.map_eq_some_iff.mp state
  obtain ⟨offline, owner⟩ := Prod.mk.inj same
  refine ⟨settled_sampleDb, q, run, row, Table.mem_of_find found, fun settled => ?_⟩
  exact absurd (owner.symm.trans (settled offline)) (by decide)

end WgPortal.Adapters.OfflineStatuses
