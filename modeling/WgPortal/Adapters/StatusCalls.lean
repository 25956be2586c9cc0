import WgPortal.Adapters.StatusOwnership

/-! What a call on the statuses does while no other session runs: one row is written
for what was read, or nothing. -/

namespace WgPortal.Adapters.StatusCalls

open Domain Library Config
open StatusProgram (issue)
open StatusOwnership (Call Moment)

abbrev Sessions := StatusSessions Unit

/-- One operation, at any time and with any failure. -/
def Step (op : StatusOp) (s : Sessions) (answer : op.Res) (t : Sessions) : Prop :=
  ∃ m : Moment, op.exec () m.now m.fault s = (answer, t)

/-- The status that a transaction creates for a peer. -/
structure Created (db : Db) (row : PeerStatus) : Prop where
  missing : db.peerStatuses.find row.peerId = none
  peer : db.peers.find row.peerId ≠ none
  fresh : ∃ now, row = PeerStatus.fresh row.peerId now

/-- The status that a transaction works on. -/
def Reads (db : Db) (id : PeerIdentifier) (row : PeerStatus) : Prop :=
  db.peerStatuses.find id = some row ∨ Created db row ∧ row.peerId = id

theorem Reads.peerId {db : Db} {id : PeerIdentifier} {row : PeerStatus} (reads : Reads db id row) :
    row.peerId = id := by
  rcases reads with found | created
  · exact Table.key_of_find found
  · exact created.2

/-- No transaction is open. -/
structure Quiet (db : Db) (s : Sessions) : Prop where
  base : s.db = db
  written : s.written () = Table.empty

/-- The open transaction has at most created statuses of these peers. -/
structure Opened (db : Db) (ids : List PeerIdentifier) (s : Sessions) : Prop where
  base : s.db = db
  written : ∀ row ∈ (s.written ()).rows, Created db row ∧ row.peerId ∈ ids

def quiet (db : Db) : Sessions := ⟨db, fun _ => none, fun _ => Table.empty⟩

variable {db : Db} {s t : Sessions}

theorem Quiet.opened (idle : Quiet db s) : Opened db [] s := by
  refine ⟨idle.base, fun row listed => ?_⟩
  rw [idle.written] at listed
  cases listed

theorem Opened.mono {ids more : List PeerIdentifier} (opened : Opened db ids s) (sub : ids ⊆ more) :
    Opened db more s :=
  ⟨opened.base, fun row listed => (opened.written row listed).imp_right (@sub _)⟩

theorem not_lockedByOther (s : Sessions) (id : PeerIdentifier) : s.lockedByOther () id = false := by
  unfold StatusSessions.lockedByOther
  split <;> simp

/-- Operations that leave the database and what is written as they are. -/
structure Same (s t : Sessions) : Prop where
  db : t.db = s.db
  written : t.written () = s.written ()

theorem Opened.same {ids : List PeerIdentifier} (opened : Opened db ids s) (same : Same s t) :
    Opened db ids t := by
  refine ⟨same.db.trans opened.base, ?_⟩
  rw [same.written]
  exact opened.written

theorem Quiet.same (idle : Quiet db s) (same : Same s t) : Quiet db t :=
  ⟨same.db.trans idle.base, same.written.trans idle.written⟩

theorem Step.timeNow {now : Time} (step : Step .timeNow s now t) : Same s t := by
  obtain ⟨⟨_, fault⟩, run⟩ := step
  cases fault <;> cases run <;> exact ⟨rfl, rfl⟩

theorem Step.wait {answer : Option Error} (step : Step .wait s answer t) : Same s t := by
  obtain ⟨⟨_, fault⟩, run⟩ := step
  cases fault <;> cases run <;> exact ⟨rfl, rfl⟩

theorem Step.begin {answer : Except Error Unit} (step : Step .begin s answer t) : Same s t := by
  obtain ⟨⟨_, fault⟩, run⟩ := step
  cases fault <;> cases run <;> exact ⟨rfl, rfl⟩

theorem Step.countPeers {id : PeerIdentifier} {answer : Except Error ℕ}
    (step : Step (.countPeers id) s answer t) :
    Same s t ∧ ∀ n, answer = .ok n → (n = 0 ↔ s.db.peers.find id = none) := by
  obtain ⟨⟨_, fault⟩, run⟩ := step
  cases fault with
  | some err =>
    cases run
    exact ⟨⟨rfl, rfl⟩, fun n h => by cases h⟩
  | none =>
    cases run
    refine ⟨⟨rfl, rfl⟩, fun n h => ?_⟩
    rw [← Except.ok.inj h, List.length_eq_zero_iff, Table.find_eq_none, List.filter_eq_nil_iff]
    simp

theorem status_reads {ids : List PeerIdentifier} (opened : Opened db ids s) {id : PeerIdentifier}
    {row : PeerStatus} (found : s.status () id = some row) : Reads db id row := by
  rcases Option.or_eq_some_iff.mp found with own | ⟨_, stored⟩
  · exact .inr ⟨(opened.written row (Table.mem_of_find own)).1, Table.key_of_find own⟩
  · exact .inl (opened.base ▸ stored)

theorem Step.selectForUpdate {ids : List PeerIdentifier} {id : PeerIdentifier}
    {answer : Except Error PeerStatus} (step : Step (.selectForUpdate id) s answer t)
    (opened : Opened db ids s) :
    Opened db ids t ∧ ∀ row, answer = .ok row → Reads db id row := by
  obtain ⟨⟨now, fault⟩, run⟩ := step
  have failed : ∀ err, (answer, t) = (.error err, s) →
      Opened db ids t ∧ ∀ row, answer = .ok row → Reads db id row := by
    intro err same
    obtain ⟨rfl, rfl⟩ := Prod.mk.inj same
    exact ⟨opened, fun row h => by cases h⟩
  cases fault with
  | some err => exact failed err run.symm
  | none =>
    simp only [StatusOp.exec, StatusOp.perform, not_lockedByOther] at run
    cases found : s.status () id with
    | none =>
      rw [found] at run
      exact failed .notFound run.symm
    | some row =>
      rw [found] at run
      obtain ⟨rfl, rfl⟩ := Prod.mk.inj run
      refine ⟨⟨opened.base, opened.written⟩, fun other h => ?_⟩
      rw [← Except.ok.inj h]
      exact status_reads opened found

theorem Step.firstOrCreate {ids : List PeerIdentifier} {id : PeerIdentifier} {now : Time}
    {answer : Except Error PeerStatus}
    (step : Step (.firstOrCreate (PeerStatus.fresh id now)) s answer t)
    (opened : Opened db ids s) (peer : db.peers.find id ≠ none) : Opened db (id :: ids) t := by
  have same : Opened db (id :: ids) s := opened.mono (List.subset_cons_self id ids)
  obtain ⟨⟨_, fault⟩, run⟩ := step
  cases fault with
  | some err => cases run; exact same
  | none =>
    simp only [StatusOp.exec, StatusOp.perform, not_lockedByOther] at run
    split at run
    · cases run
      exact same
    · rename_i missing
      obtain ⟨-, rfl⟩ := Prod.mk.inj run
      refine ⟨same.base, fun row listed => ?_⟩
      simp only [StatusSessions.write, Function.update_self] at listed
      rcases StatusOwnership.mem_upsertAll listed with new | before
      · obtain rfl := List.mem_singleton.mp new
        have none : s.db.peerStatuses.find id = none := (Option.or_eq_none_iff.mp missing).2
        exact ⟨⟨opened.base ▸ none, peer, now, rfl⟩, List.mem_cons_self⟩
      · exact same.written row before

/-- A written row is new, or it was written before. -/
theorem Step.save {rows : List PeerStatus} {answer : Except Error Unit}
    (step : Step (.save rows) s answer t) :
    t.db = s.db ∧ (answer = .ok () → t.written () = (s.written ()).upsertAll rows) := by
  obtain ⟨⟨_, fault⟩, run⟩ := step
  cases fault with
  | some err =>
    cases run
    exact ⟨rfl, fun h => by cases h⟩
  | none =>
    have free : (rows.any fun row => s.lockedByOther () row.peerId) = false := by
      simp [not_lockedByOther]
    simp only [StatusOp.exec, StatusOp.perform, free] at run
    cases run
    exact ⟨rfl, fun _ => by simp [StatusSessions.write]⟩

theorem written_rollback (s : Sessions) : (s.rollback ()).written () = Table.empty := by
  simp [StatusSessions.rollback]

theorem Step.commit {answer : Except Error Unit} (step : Step .commit s answer t) :
    t.written () = Table.empty ∧ ((∃ err, answer = .error err ∧ t.db = s.db) ∨
      answer = .ok () ∧
        t.db = { s.db with peerStatuses := s.db.peerStatuses.upsertAll (s.written ()).rows }) := by
  obtain ⟨⟨_, fault⟩, run⟩ := step
  cases fault with
  | some err =>
    cases run
    exact ⟨written_rollback s, .inl ⟨err, rfl, rfl⟩⟩
  | none =>
    cases run
    exact ⟨written_rollback s, .inr ⟨rfl, rfl⟩⟩

theorem Step.rollback {answer : Unit} (step : Step .rollback s answer t) :
    Quiet s.db t := by
  obtain ⟨⟨_, fault⟩, run⟩ := step
  cases fault <;> cases run <;> exact ⟨rfl, written_rollback s⟩

theorem always_issue {op : StatusOp} {Q : op.Res → Sessions → Prop}
    (each : ∀ answer t, Step op s answer t → Q answer t) : (issue op).Always Step s Q := each

/-- What a transaction commits is what its body has written. -/
def Db.written (db : Db) (s : Sessions) : Db :=
  { db with peerStatuses := db.peerStatuses.upsertAll (s.written ()).rows }

/-- The body of a transaction, which may succeed if its commit is such an outcome. -/
def Body (db : Db) (out : Db → Prop) (result : Except Error Unit) (t : Sessions) : Prop :=
  t.db = db ∧ (result = .ok () → out (Db.written db t))

/-- A call that succeeds has such an outcome, and one that fails has none. -/
structure Done (db : Db) (out : Db → Prop) (result : Except Error Unit) (t : Sessions) : Prop where
  quiet : Quiet t.db t
  ok : result = .ok () → out t.db
  error : ∀ err, result = .error err → t.db = db

theorem Done.failed {out : Db → Prop} {err : Error} (idle : Quiet db t) :
    Done db out (.error err) t :=
  ⟨⟨rfl, idle.written⟩, (fun h => by cases h), fun _ _ => idle.base⟩

variable {out : Db → Prop}

theorem always_transaction {body : StatusProgram (Except Error Unit)}
    (always : ∀ s, Quiet db s → body.Always Step s (Body db out)) (idle : Quiet db s) :
    (transaction body).Always Step s (Done db out) := by
  refine (always_issue (Q := fun _ t => Quiet db t) fun _ _ step => idle.same step.begin).bind ?_
  intro began t idle
  cases began with
  | error err => exact Done.failed idle
  | ok =>
    refine (always t idle).bind fun result t done => ?_
    cases result with
    | error err =>
      refine (always_issue (Q := fun _ u => Quiet db u) fun _ _ step => ?_).bind
        fun _ _ idle => Done.failed idle
      exact done.1 ▸ step.rollback
    | ok =>
      refine always_issue fun answer u step => ?_
      obtain ⟨written, ⟨err, rfl, same⟩ | ⟨rfl, committed⟩⟩ := step.commit
      · exact Done.failed ⟨same.trans done.1, written⟩
      · refine ⟨⟨rfl, written⟩, fun _ => ?_, fun err h => by cases h⟩
        rw [committed, done.1]
        exact done.2 rfl

theorem always_retryOnConflict {failure : String}
    {body : ℕ → StatusProgram (Except Error Unit)}
    (always : ∀ attempt s, Quiet db s → (body attempt).Always Step s (Body db out))
    (attempt retries : ℕ) (idle : Quiet db s) :
    (retryOnConflict failure body attempt retries).Always Step s (Done db out) := by
  have idle_of_failed : ∀ {err t}, Done db out (.error err) t → Quiet db t :=
    fun done => ⟨done.error _ rfl, done.quiet.written⟩
  induction retries generalizing attempt s with
  | zero =>
    refine (always_transaction (always attempt) idle).bind fun result t done => ?_
    cases result with
    | ok => exact done
    | error err => exact Done.failed (idle_of_failed done)
  | succ retries ih =>
    refine (always_transaction (always attempt) idle).bind fun result t done => ?_
    cases result with
    | ok => exact done
    | error err =>
      simp only
      split
      · exact done
      · refine (always_issue (Q := fun _ u => Quiet db u) fun _ _ step =>
          (idle_of_failed done).same step.wait).bind fun waited u idle => ?_
        cases waited with
        | some ctxErr => exact Done.failed idle
        | none => exact ih (attempt + 1) idle

/-- The answer is a status to work on, unless it is an error. -/
def Got (db : Db) (ids : List PeerIdentifier) (id : PeerIdentifier)
    (answer : Except Error PeerStatus) (t : Sessions) : Prop :=
  Opened db (id :: ids) t ∧ ∀ row, answer = .ok row → Reads db id row

theorem always_getOrCreatePeerStatus {ids : List PeerIdentifier} (id : PeerIdentifier)
    (opened : Opened db ids s) :
    (getOrCreatePeerStatus id).Always Step s (Got db ids id) := by
  have failed : ∀ {err ids' t}, Opened db ids' t → ids' ⊆ id :: ids → Got db ids id (.error err) t :=
    fun opened sub => ⟨opened.mono sub, fun row h => by cases h⟩
  have sub : ids ⊆ id :: ids := List.subset_cons_self id ids
  refine (always_issue (Q := fun _ t => Opened db ids t) fun _ _ step =>
    opened.same step.timeNow).bind fun now t opened => ?_
  refine (always_issue fun _ _ step => step.selectForUpdate opened).bind fun answer t read => ?_
  cases answer with
  | ok status => exact ⟨read.1.mono sub, read.2⟩
  | error err =>
    simp only
    split
    · exact failed read.1 sub
    · refine (always_issue (Q := fun (answer : Except Error ℕ) u => Opened db ids u ∧
        ∀ n, answer = .ok n → (n = 0 ↔ db.peers.find id = none)) fun answer u step => ?_).bind fun count u counted => ?_
      · have same := step.countPeers
        exact ⟨read.1.same same.1, read.1.base ▸ same.2⟩
      · split
        · exact failed counted.1 sub
        · exact failed counted.1 sub
        · rename_i n stored
          have peer : db.peers.find id ≠ none := fun none =>
            stored ((counted.2 n rfl).mpr none ▸ rfl)
          refine (always_issue fun _ _ step => step.firstOrCreate counted.1 peer).bind
            fun created v opened => ?_
          cases created with
          | error err => exact failed opened (List.Subset.refl _)
          | ok status =>
            refine (always_issue fun _ _ step => step.selectForUpdate opened).bind
              fun answer v read => ?_
            cases answer with
            | error err => exact failed read.1 (List.Subset.refl _)
            | ok status => exact read

def Db.putStatus (db : Db) (row : PeerStatus) : Db :=
  { db with peerStatuses := db.peerStatuses.upsert row }

/-- A peer that is not stored is left alone. -/
inductive Updated (cfg : Config) (id : PeerIdentifier) (updateFunc : StatusUpdate) (db : Db) :
    Db → Prop
  | skipped (gone : db.peers.find id = none) : Updated cfg id updateFunc db db
  | stored {old new : PeerStatus} (peer : db.peers.find id ≠ none) (read : Reads db id old)
      (updated : updateFunc.apply old = .ok new) :
      Updated cfg id updateFunc db (Db.putStatus db (ownedUpdate cfg.core.clusterNodeId old new))

inductive Claimed (id : PeerIdentifier) (ownerNodeId : String) (updateFunc : StatusUpdate)
    (db : Db) : Db → Prop
  | stored {old new : PeerStatus} {now : Time} (named : ownerNodeId ≠ "") (read : Reads db id old)
      (updated : updateFunc.apply { old with ownerNodeId := ownerNodeId, updatedAt := now } =
        .ok new) :
      Claimed id ownerNodeId updateFunc db (Db.putStatus db { new with ownerNodeId := ownerNodeId })

/-- A row that a batch writes. -/
structure Batched (updates : List (PeerIdentifier × StatusUpdate)) (db : Db) (row : PeerStatus) :
    Prop where
  peer : db.peers.find row.peerId ≠ none
  source : Created db row ∨ ∃ id updateFunc old, (id, updateFunc) ∈ updates ∧ Reads db id old ∧
    old.ownerNodeId = "" ∧ updateFunc.apply old = .ok row

def Call.Outcome (call : Call) (db db' : Db) : Prop :=
  match call with
  | .update cfg id updateFunc => Updated cfg id updateFunc db db'
  | .claim id ownerNodeId updateFunc => Claimed id ownerNodeId updateFunc db db'
  | .batch updates => ∃ attempt rows, (∀ row ∈ rows, Batched (updates attempt) db row) ∧
      db' = { db with peerStatuses := db.peerStatuses.upsertAll rows }

/-- What is written last for the only peer of a transaction. -/
theorem written_save {id : PeerIdentifier} {row : PeerStatus} (opened : Opened db [id] s)
    (named : row.peerId = id) (written : t.written () = (s.written ()).upsertAll [row]) :
    Db.written db t = Db.putStatus db row := by
  have replaced : ((s.written ()).filter fun r => r.peerId ≠ row.peerId).rows = [] := by
    refine List.filter_eq_nil_iff.mpr fun r listed => ?_
    have same : r.peerId = id := List.mem_singleton.mp (opened.written r listed).2
    simp [same, named]
  have rows : ((s.written ()).upsertAll [row]).rows = [row] := by
    simp only [Table.upsertAll, List.foldl_cons, List.foldl_nil, Table.upsert, replaced,
      List.nil_append]
  rw [Db.written, written, rows]
  rfl

theorem always_save {id : PeerIdentifier} {row : PeerStatus} (opened : Opened db [id] s)
    (named : row.peerId = id) (stored : out (Db.putStatus db row)) :
    (issue (.save [row])).Always Step s (Body db out) := by
  refine always_issue fun answer t step => ⟨step.save.1.trans opened.base, fun ok => ?_⟩
  rw [written_save opened named (step.save.2 ok)]
  exact stored

theorem Body.failed {err : Error} (same : t.db = db) : Body db out (.error err) t :=
  ⟨same, fun h => by cases h⟩

theorem always_updateOnce (cfg : Config) (id : PeerIdentifier) (updateFunc : StatusUpdate)
    (idle : Quiet db s) :
    (updateOnce cfg id updateFunc).Always Step s (Body db (Updated cfg id updateFunc db)) := by
  refine (always_issue (Q := fun (answer : Except Error ℕ) t => Quiet db t ∧
    ∀ n, answer = .ok n → (n = 0 ↔ db.peers.find id = none)) fun answer t step => ?_).bind
      fun count t counted => ?_
  · have same := step.countPeers
    exact ⟨idle.same same.1, idle.base ▸ same.2⟩
  · split
    · exact Body.failed counted.1.base
    · have gone : db.peers.find id = none := (counted.2 0 rfl).mp rfl
      refine ⟨counted.1.base, fun _ => ?_⟩
      rw [Db.written, counted.1.written]
      exact .skipped gone
    · rename_i n stored
      have peer : db.peers.find id ≠ none := fun none =>
        stored ((counted.2 n rfl).mpr none ▸ rfl)
      refine (always_getOrCreatePeerStatus id counted.1.opened).bind fun answer u got => ?_
      cases answer with
      | error err => exact Body.failed got.1.base
      | ok old =>
        have read : Reads db id old := got.2 old rfl
        simp only
        split
        · exact Body.failed got.1.base
        · rename_i new updated
          have named : (ownedUpdate cfg.core.clusterNodeId old new).peerId = id := by
            rw [StatusOwnership.peerId_ownedUpdate, updateFunc.peerId old new updated, read.peerId]
          exact always_save got.1 named (.stored peer read updated)

theorem always_claimOnce {id : PeerIdentifier} {ownerNodeId : String} (updateFunc : StatusUpdate)
    (named : ownerNodeId ≠ "") (idle : Quiet db s) :
    (claimOnce id ownerNodeId updateFunc).Always Step s
      (Body db (Claimed id ownerNodeId updateFunc db)) := by
  refine (always_getOrCreatePeerStatus id idle.opened).bind fun answer t got => ?_
  cases answer with
  | error err => exact Body.failed got.1.base
  | ok old =>
    have read : Reads db id old := got.2 old rfl
    refine (always_issue (Q := fun _ u => Opened db [id] u) fun _ _ step =>
      got.1.same step.timeNow).bind fun now u opened => ?_
    split
    · exact Body.failed opened.base
    · rename_i new updated
      have same : new.peerId = id := (updateFunc.peerId _ new updated).trans read.peerId
      exact always_save opened same (.stored named read updated)

theorem Batched.cons {first : PeerIdentifier × StatusUpdate}
    {updates : List (PeerIdentifier × StatusUpdate)} {row : PeerStatus}
    (batched : Batched updates db row) : Batched (first :: updates) db row := by
  refine ⟨batched.peer, batched.source.imp_right ?_⟩
  rintro ⟨id, updateFunc, old, listed, read⟩
  exact ⟨id, updateFunc, old, List.mem_cons_of_mem _ listed, read⟩

/-- The rows that a batch has collected, if it has. -/
def Collected (updates : List (PeerIdentifier × StatusUpdate)) (db : Db)
    (result : Except Error (List PeerStatus)) (t : Sessions) : Prop :=
  (∃ ids, Opened db ids t) ∧ ∀ rows, result = .ok rows → ∀ row ∈ rows, Batched updates db row

theorem always_updatedStatuses (updates : List (PeerIdentifier × StatusUpdate))
    {ids : List PeerIdentifier} (opened : Opened db ids s) :
    (updatedStatuses updates).Always Step s (Collected updates db) := by
  have failed : ∀ {updates ids err t}, Opened db ids t → Collected updates db (.error err) t :=
    fun opened => ⟨⟨_, opened⟩, fun _ h => by cases h⟩
  induction updates generalizing ids s with
  | nil =>
    refine ⟨⟨ids, opened⟩, fun rows h => ?_⟩
    rw [← Except.ok.inj h]
    exact fun row none => absurd none List.not_mem_nil
  | cons first updates ih =>
    have later : ∀ {ids t}, Opened db ids t →
        (updatedStatuses updates).Always Step t (Collected (first :: updates) db) :=
      fun opened => Program.Always.mono (ih opened) fun result t collected =>
        ⟨collected.1, fun rows h row hrow => (collected.2 rows h row hrow).cons⟩
    refine (always_issue (Q := fun (answer : Except Error ℕ) t => Opened db ids t ∧
      ∀ n, answer = .ok n → (n = 0 ↔ db.peers.find first.1 = none)) fun answer t step => ?_).bind
        fun count t counted => ?_
    · have same := step.countPeers
      exact ⟨opened.same same.1, opened.base ▸ same.2⟩
    · split
      · exact failed counted.1
      · exact later counted.1
      · rename_i n stored
        have peer : db.peers.find first.1 ≠ none := fun none =>
          stored ((counted.2 n rfl).mpr none ▸ rfl)
        refine (always_getOrCreatePeerStatus first.1 counted.1).bind fun answer u got => ?_
        cases answer with
        | error err => exact failed got.1
        | ok old =>
          have read : Reads db first.1 old := got.2 old rfl
          simp only
          split
          · exact later got.1
          · rename_i unowned
            split
            · exact failed got.1
            · rename_i new updated
              have named : new.peerId = first.1 :=
                (first.2.peerId old new updated).trans read.peerId
              have batched : Batched (first :: updates) db new :=
                ⟨named ▸ peer, .inr ⟨first.1, first.2, old, List.mem_cons_self, read,
                  by simpa using unowned, updated⟩⟩
              refine (later got.1).bind fun result v collected => ?_
              cases result with
              | error err => exact failed collected.1.choose_spec
              | ok rows =>
                refine ⟨collected.1, fun all h row hrow => ?_⟩
                rw [← Except.ok.inj h] at hrow
                rcases List.mem_cons.mp hrow with rfl | before
                · exact batched
                · exact collected.2 rows rfl row before

theorem always_batchOnce (updates : ℕ → List (PeerIdentifier × StatusUpdate)) (attempt : ℕ)
    (idle : Quiet db s) :
    (batchOnce (updates attempt)).Always Step s
      (Body db (Call.Outcome (.batch updates) db)) := by
  refine (always_updatedStatuses (updates attempt) idle.opened).bind fun result t collected => ?_
  obtain ⟨⟨ids, opened⟩, batched⟩ := collected
  have created : ∀ row ∈ (t.written ()).rows, Batched (updates attempt) db row := by
    intro row listed
    have here := (opened.written row listed).1
    exact ⟨here.peer, .inl here⟩
  split
  · exact Body.failed opened.base
  · exact ⟨opened.base, fun _ => ⟨attempt, _, created, rfl⟩⟩
  · rename_i rows _
    refine always_issue fun answer u step => ⟨step.save.1.trans opened.base, fun ok => ?_⟩
    refine ⟨attempt, _, ?_, by rw [Db.written, step.save.2 ok]⟩
    intro row listed
    rcases StatusOwnership.mem_upsertAll listed with new | before
    · exact batched rows rfl row new
    · exact created row before

/-- A call that succeeds has its outcome, and one that fails leaves the database as it was. -/
theorem always_program (call : Call) (idle : Quiet db s) :
    call.program.Always Step s (Done db (Call.Outcome call db)) := by
  cases call with
  | update cfg id updateFunc =>
    exact always_retryOnConflict (fun _ _ idle => always_updateOnce cfg id updateFunc idle) 0 9 idle
  | claim id ownerNodeId updateFunc =>
    simp only [Call.program, claimPeerStatus]
    split
    · exact Done.failed idle
    · rename_i named
      exact always_retryOnConflict (fun _ _ idle => always_claimOnce updateFunc named idle) 0 9 idle
  | batch updates =>
    simp only [Call.program, batchUpdatePeerStatuses]
    split
    · refine ⟨⟨rfl, idle.written⟩, fun _ => ⟨0, [], fun _ h => absurd h List.not_mem_nil, ?_⟩,
        fun err h => by cases h⟩
      rw [idle.base]
      rfl
    · exact always_retryOnConflict (fun attempt _ idle => always_batchOnce updates attempt idle) 0 4
        idle

/-- The operations of the only session run one after the other. -/
def inOrder (moments : ℕ → Moment) (op : StatusOp) (s : ℕ × Sessions) : op.Res × (ℕ × Sessions) :=
  let r := op.exec () (moments s.1).now (moments s.1).fault s.2
  (r.1, s.1 + 1, r.2)

def Call.run (call : Call) (moments : ℕ → Moment) (db : Db) : Except Error Unit × Db :=
  let r := call.program.eval (inOrder moments) (0, quiet db)
  (r.1, r.2.2.db)

theorem run_outcome (call : Call) (moments : ℕ → Moment) (db : Db) :
    ((Call.run call moments db).1 = .ok () → Call.Outcome call db (Call.run call moments db).2) ∧
      ∀ err, (Call.run call moments db).1 = .error err → (Call.run call moments db).2 = db := by
  have idle : Quiet db (Prod.snd (0, quiet db)) := ⟨rfl, rfl⟩
  have done : Done db (Call.Outcome call db) (Call.run call moments db).1
      (call.program.eval (inOrder moments) (0, quiet db)).2.2 :=
    (always_program call idle).eval fun op u => ⟨moments u.1, rfl⟩
  exact ⟨done.ok, done.error⟩

end WgPortal.Adapters.StatusCalls
