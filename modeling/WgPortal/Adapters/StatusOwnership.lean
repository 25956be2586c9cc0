import WgPortal.Adapters.PeerStatuses
import WgPortal.Library.Interleaving

/-! Who changes the state of a connected peer that a node owns, in any interleaving
of the transactions on the statuses. Sessions run statement by statement; peers are
stored and deleted in between. -/

namespace WgPortal.Adapters.StatusOwnership

open Domain Library Config System
open StatusProgram (issue)

variable {ι : Type}

inductive Call where
  | update (cfg : Config) (id : PeerIdentifier) (updateFunc : StatusUpdate)
  | claim (id : PeerIdentifier) (ownerNodeId : String) (updateFunc : StatusUpdate)
  | batch (updates : ℕ → List (PeerIdentifier × StatusUpdate))

def Call.program : Call → StatusProgram (Except Error Unit)
  | .update cfg id updateFunc => updatePeerStatus cfg id updateFunc
  | .claim id ownerNodeId updateFunc => claimPeerStatus id ownerNodeId updateFunc
  | .batch updates => batchUpdatePeerStatuses updates

/-- `running` is the call that a session is in. -/
structure State (ι : Type) extends StatusSessions ι where
  running : ι → Option Call

/-- What other functions do to peers and their statuses. -/
inductive Env where
  | savePeer (userId : UserIdentifier) (now : Time) (peer : Peer)
  | deletePeer (id : PeerIdentifier)
  | deleteStatus (id : PeerIdentifier)

/-- Who deletes or inserts a status has to wait for its lock. -/
def Env.apply (e : Env) (s : State ι) : Option (State ι) :=
  match e with
  | .savePeer userId now peer =>
    if s.locked peer.identifier = none ∨ s.db.peerStatuses.find peer.identifier ≠ none then
      some { s with db := s.db.commitPeer userId now peer.identifier peer }
    else none
  | .deletePeer id =>
    if s.locked id = none then some { s with db := s.db.deletePeer id } else none
  | .deleteStatus id =>
    if s.locked id = none then
      some { s with db := { s.db with peerStatuses := s.db.peerStatuses.filter (·.peerId ≠ id) } }
    else none

def initial (db : Db) : State ι := ⟨⟨db, fun _ => none, fun _ => Table.empty⟩, fun _ => none⟩

/-- A node without a name owns nothing. -/
structure OwnedBy (row : PeerStatus) (node : String) : Prop where
  connected : row.isConnected = true
  owner : row.ownerNodeId = node
  named : node ≠ ""

structure SameState (old new : PeerStatus) : Prop where
  isConnected : new.isConnected = old.isConnected
  isPingable : new.isPingable = old.isPingable
  ownerNodeId : new.ownerNodeId = old.ownerNodeId

/-- The calls that may change the state of a connected peer of `node`: its own
updates, and claims. -/
def Call.MayChange (node : String) : Call → Prop
  | .update cfg _ _ => cfg.core.clusterNodeId = node
  | .claim .. => True
  | .batch _ => False

/-- A call may store `new` in place of `old`. -/
def Call.Allows (call : Call) (old : Option PeerStatus) (new : PeerStatus) : Prop :=
  ∀ row node, old = some row → OwnedBy row node → call.MayChange node ∨ SameState row new

/-- What a session has written is locked, and its call may write it. -/
def Covered (s : State ι) (i : ι) : Prop :=
  match s.running i with
  | none => s.written i = Table.empty
  | some call => ∀ row ∈ (s.written i).rows, s.locked row.peerId = some i ∧
      call.Allows (s.db.peerStatuses.find row.peerId) row

/-- A session relies on what it has written and on the rows it has locked. -/
structure Unmoved (i : ι) (s t : State ι) : Prop where
  written : t.written i = s.written i
  running : t.running i = s.running i
  locked : ∀ id, s.locked id = some i →
    t.locked id = some i ∧ t.db.peerStatuses.find id = s.db.peerStatuses.find id

def contract (ι : Type) : Contract ι (State ι) where
  inv := fun s => ∀ i, Covered s i
  rely := Unmoved
  refl := fun _ _ => ⟨rfl, rfl, fun _ held => ⟨held, rfl⟩⟩
  trans := fun _ _ _ _ first second =>
    { written := second.written.trans first.written
      running := second.running.trans first.running
      locked := fun id held =>
        have here := first.locked id held
        have later := second.locked id here.1
        ⟨later.1, later.2.trans here.2⟩ }

theorem Covered.unmoved {s t : State ι} {i : ι} (covered : Covered s i) (same : Unmoved i s t) :
    Covered t i := by
  unfold Covered at covered ⊢
  rw [same.running, same.written]
  split
  · rename_i idle
    rwa [idle] at covered
  · rename_i call busy
    rw [busy] at covered
    intro row hrow
    have held := same.locked row.peerId (covered row hrow).1
    exact ⟨held.1, held.2 ▸ (covered row hrow).2⟩

/-- Each session keeps to its own rows. -/
theorem keeps_of_unmoved {s t : State ι} {i : ι} (inv : (contract ι).inv s)
    (others : ∀ j, j ≠ i → Unmoved j s t) (mine : Covered t i) : (contract ι).Keeps i s t := by
  refine ⟨fun j => ?_, others⟩
  by_cases same : j = i
  · exact same ▸ mine
  · exact (inv j).unmoved (others j same)

/-- The session runs the call and has written nothing. -/
structure Ready (call : Call) (i : ι) (s : State ι) : Prop where
  running : s.running i = some call
  written : s.written i = Table.empty

/-- It may write the row. -/
structure Held (call : Call) (i : ι) (row : PeerStatus) (s : State ι) : Prop where
  locked : s.locked row.peerId = some i
  allowed : call.Allows (s.db.peerStatuses.find row.peerId) row

/-- It has written new rows only, and may write the rows `next`. -/
structure Reading (call : Call) (i : ι) (next : List PeerStatus) (s : State ι) : Prop where
  running : s.running i = some call
  held : ∀ row ∈ next, Held call i row s
  new : ∀ row ∈ (s.written i).rows,
    s.locked row.peerId = some i ∧ s.db.peerStatuses.find row.peerId = none

/-- It has locked the row and read it. -/
structure Read (i : ι) (id : PeerIdentifier) (row : PeerStatus) (s : State ι) : Prop where
  peerId : row.peerId = id
  locked : s.locked id = some i
  current : ∀ old, s.db.peerStatuses.find id = some old → old = row

/-- What it has read, if it has. -/
structure ReadIf (call : Call) (i : ι) (next : List PeerStatus) (id : PeerIdentifier)
    (answer : Except Error PeerStatus) (s : State ι) : Prop where
  reading : Reading call i next s
  row : ∀ row, answer = .ok row → Read i id row s

theorem Ready.reading {call : Call} {i : ι} {s : State ι} (ready : Ready call i s) :
    Reading call i [] s := by
  refine ⟨ready.running, fun _ h => absurd h List.not_mem_nil, fun row hrow => ?_⟩
  rw [ready.written] at hrow
  cases hrow

theorem Ready.covered {call : Call} {i : ι} {s : State ι} (ready : Ready call i s) :
    Covered s i := by
  simp only [Covered, ready.running, ready.written]
  exact fun _ hrow => by cases hrow

theorem Ready.unmoved {call : Call} {i : ι} {s t : State ι} (ready : Ready call i s)
    (same : Unmoved i s t) : Ready call i t :=
  ⟨same.running.trans ready.running, same.written.trans ready.written⟩

theorem Held.unmoved {call : Call} {i : ι} {row : PeerStatus} {s t : State ι}
    (held : Held call i row s) (same : Unmoved i s t) : Held call i row t := by
  have kept := same.locked row.peerId held.locked
  exact ⟨kept.1, kept.2 ▸ held.allowed⟩

theorem Held.locks {call : Call} {i : ι} {row : PeerStatus} {s t : State ι}
    (held : Held call i row s) (db : t.db = s.db)
    (locked : ∀ id, s.locked id = some i → t.locked id = some i) : Held call i row t :=
  ⟨locked row.peerId held.locked, db ▸ held.allowed⟩

theorem Reading.unmoved {call : Call} {i : ι} {next : List PeerStatus} {s t : State ι}
    (reading : Reading call i next s) (same : Unmoved i s t) : Reading call i next t := by
  refine ⟨same.running.trans reading.running,
    fun row hrow => (reading.held row hrow).unmoved same, fun row hrow => ?_⟩
  rw [same.written] at hrow
  have new := reading.new row hrow
  have held := same.locked row.peerId new.1
  exact ⟨held.1, held.2.trans new.2⟩

theorem Read.unmoved {i : ι} {id : PeerIdentifier} {row : PeerStatus} {s t : State ι}
    (read : Read i id row s) (same : Unmoved i s t) : Read i id row t := by
  have held := same.locked id read.locked
  exact ⟨read.peerId, held.1, fun old found => read.current old (held.2 ▸ found)⟩

theorem ReadIf.unmoved {call : Call} {i : ι} {next : List PeerStatus} {id : PeerIdentifier}
    {answer : Except Error PeerStatus} {s t : State ι} (post : ReadIf call i next id answer s)
    (same : Unmoved i s t) : ReadIf call i next id answer t :=
  ⟨post.reading.unmoved same, fun row found => (post.row row found).unmoved same⟩

theorem stable_reading {call : Call} {i : ι} {next : List PeerStatus} :
    ∀ s t, Unmoved i s t → Reading call i next s → Reading call i next t :=
  fun _ _ same reading => reading.unmoved same

theorem stable_running {call : Call} {i : ι} :
    ∀ s t : State ι, Unmoved i s t → s.running i = some call → t.running i = some call :=
  fun _ _ same running => same.running.trans running

/-- The rows that a batch has collected, if it has, and those it had before. -/
structure Collected (call : Call) (i : ι) (next : List PeerStatus)
    (result : Except Error (List PeerStatus)) (s : State ι) : Prop where
  running : s.running i = some call
  reading : ∀ rows, result = .ok rows → Reading call i (rows ++ next) s

theorem Collected.unmoved {call : Call} {i : ι} {next : List PeerStatus}
    {result : Except Error (List PeerStatus)} {s t : State ι}
    (post : Collected call i next result s) (same : Unmoved i s t) : Collected call i next result t :=
  ⟨same.running.trans post.running, fun rows found => (post.reading rows found).unmoved same⟩

theorem lock_locked_of_own {i : ι} {s : State ι} (ids : List PeerIdentifier) (id : PeerIdentifier)
    (own : s.locked id = some i) : (s.lock i ids).locked id = some i := by
  simp only [StatusSessions.lock, own, ite_self]

/-- A deleted status is not locked. -/
theorem find_delete {s : State ι} {id other : PeerIdentifier} {i : ι} (free : s.locked id = none)
    (held : s.locked other = some i) :
    (s.db.peerStatuses.filter (·.peerId ≠ id)).find other = s.db.peerStatuses.find other := by
  have ne : other ≠ id := by
    intro same
    rw [same, free] at held
    cases held
  rw [Table.find_filter]
  cases found : s.db.peerStatuses.find other with
  | none => rfl
  | some row => simp [Table.key_of_find found, ne]

theorem find_ensurePeerStatus (db : Db) (now : Time) (peer : Peer) (id : PeerIdentifier) :
    (db.ensurePeerStatus now peer.identifier peer).peerStatuses.find id =
      if peer.identifier = id ∧ db.peerStatuses.find id = none then
        some (PeerStatus.fresh id now)
      else db.peerStatuses.find id := by
  unfold Db.ensurePeerStatus
  cases found : db.peerStatuses.find peer.identifier with
  | some status =>
    have same : status.peerId = peer.identifier := Table.key_of_find found
    simp only [same, ne_eq, not_true, if_false]
    by_cases here : peer.identifier = id
    · simp [← here, found]
    · simp [here]
  | none =>
    simp only [Table.find_upsert]
    by_cases here : peer.identifier = id
    · simp [← here, found, PeerStatus.fresh]
    · simp [here, PeerStatus.fresh]

/-- Peers are stored and deleted past the locks of all sessions. -/
theorem unmoved_env {e : Env} {s t : State ι} (step : e.apply s = some t) (i : ι) :
    Unmoved i s t := by
  cases e with
  | savePeer userId now peer =>
    simp only [Env.apply] at step
    split at step
    · rename_i allowed
      rw [← Option.some.inj step]
      refine ⟨rfl, rfl, fun id held => ⟨held, ?_⟩⟩
      simp only [Db.commitPeer, find_ensurePeerStatus]
      split
      · rename_i new
        rcases allowed with free | known
        · rw [new.1, held] at free
          cases free
        · exact absurd (new.1 ▸ new.2) known
      · rfl
    · cases step
  | deletePeer id =>
    simp only [Env.apply] at step
    split at step
    · rename_i free
      rw [← Option.some.inj step]
      exact ⟨rfl, rfl, fun other held => ⟨held, find_delete free held⟩⟩
    · cases step
  | deleteStatus id =>
    simp only [Env.apply] at step
    split at step
    · rename_i free
      rw [← Option.some.inj step]
      exact ⟨rfl, rfl, fun other held => ⟨held, find_delete free held⟩⟩
    · cases step

theorem find_env {e : Env} {s t : State ι} (step : e.apply s = some t) {id : PeerIdentifier}
    {row : PeerStatus} (stored : s.db.peerStatuses.find id = some row) :
    t.db.peerStatuses.find id = some row ∨ t.db.peerStatuses.find id = none := by
  have deleted : ∀ other, (s.db.peerStatuses.filter (·.peerId ≠ other)).find id = some row ∨
      (s.db.peerStatuses.filter (·.peerId ≠ other)).find id = none := by
    intro other
    rw [Table.find_filter, stored]
    by_cases same : row.peerId = other <;> simp [same]
  cases e with
  | savePeer userId now peer =>
    simp only [Env.apply] at step
    split at step
    · rw [← Option.some.inj step]
      have kept : (s.db.upsertPeer userId now peer).peerStatuses.find id = some row := stored
      simp [Db.commitPeer, find_ensurePeerStatus, kept]
    · cases step
  | deletePeer other =>
    simp only [Env.apply] at step
    split at step
    · rw [← Option.some.inj step]
      exact deleted other
    · cases step
  | deleteStatus other =>
    simp only [Env.apply] at step
    split at step
    · rw [← Option.some.inj step]
      exact deleted other
    · cases step

variable [DecidableEq ι]

theorem locked_of_not_lockedByOther {s : State ι} {i j : ι} {id : PeerIdentifier}
    (free : s.lockedByOther i id = false) (held : s.locked id = some j) : j = i := by
  simpa [StatusSessions.lockedByOther, held] using free

/-- Rows that nobody else has locked are locked. -/
theorem unmoved_lock {s t : State ι} {i j : ι} (other : j ≠ i) {ids : List PeerIdentifier}
    (free : ∀ id ∈ ids, s.lockedByOther i id = false) (db : t.db = s.db)
    (locked : t.locked = (s.lock i ids).locked) (written : t.written j = s.written j)
    (running : t.running = s.running) : Unmoved j s t := by
  refine ⟨written, congrFun running j, fun id held => ?_⟩
  have outside : id ∉ ids := fun inside => other (locked_of_not_lockedByOther (free id inside) held)
  have kept : t.locked id = some j := by
    rw [locked]
    simp only [StatusSessions.lock, outside, if_false, held]
  exact ⟨kept, by rw [db]⟩

/-- The time of an operation and its failure. -/
structure Moment where
  now : Time
  fault : Option Error

def exec (i : ι) (op : StatusOp) (m : Moment) (s : State ι) : op.Res × State ι :=
  let (answer, sessions) := op.exec i m.now m.fault s.toStatusSessions
  (answer, { s with toStatusSessions := sessions })

def system (ι : Type) [DecidableEq ι] :
    System ι Env Call StatusOp StatusOp.Res Moment (Except Error Unit) (State ι) where
  exec := exec
  env := Env.apply
  start := fun i call s =>
    match s.running i with
    | some _ => none
    | none => some (call.program, { s with running := Function.update s.running i (some call) })
  finish := fun i _ s => { s with running := Function.update s.running i none }

def guard : Guard ι Env Call StatusOp Moment (State ι) where
  env := fun _ _ => True
  start := fun _ _ _ => True
  step := fun _ _ _ _ => True

abbrev Sound {β : Type} (i : ι) (post : β → State ι → Prop) (prog : StatusProgram β)
    (s : State ι) : Prop := (contract ι).Sound (system ι) guard i post prog s

theorem sound_issue {i : ι} {op : StatusOp} {P : State ι → Prop} {post : op.Res → State ι → Prop}
    (stable : ∀ s t, Unmoved i s t → P s → P t)
    (stays : ∀ a s t, Unmoved i s t → post a s → post a t)
    (each : ∀ m t, P t → (contract ι).inv t → (contract ι).Keeps i t (exec i op m t).2 ∧
      post (exec i op m t).1 (exec i op m t).2)
    {s : State ι} (start : P s) : Sound i post (issue op) s := by
  intro t m same inv _
  have step := each m t (stable s t same start) inv
  exact ⟨step.1, fun u later _ => stays _ _ u later step.2⟩

/-- Operations without an effect. -/
theorem sound_passive {i : ι} {op : StatusOp} {P : State ι → Prop}
    (stable : ∀ s t, Unmoved i s t → P s → P t) (passive : ∀ m t, (exec i op m t).2 = t)
    {s : State ι} (start : P s) : Sound i (fun _ => P) (issue op) s := by
  refine sound_issue stable (fun _ => stable) (fun m t holds inv => ?_) start
  rw [passive m t]
  exact ⟨keeps_of_unmoved inv (fun j _ => (contract ι).refl j t) (inv i), holds⟩

theorem exec_timeNow (i : ι) (m : Moment) (t : State ι) : (exec i .timeNow m t).2 = t := by
  cases m with
  | mk now fault => cases fault <;> rfl

theorem exec_wait (i : ι) (m : Moment) (t : State ι) : (exec i .wait m t).2 = t := by
  cases m with
  | mk now fault => cases fault <;> rfl

theorem exec_begin (i : ι) (m : Moment) (t : State ι) : (exec i .begin m t).2 = t := by
  cases m with
  | mk now fault => cases fault <;> rfl

theorem exec_countPeers (i : ι) (id : PeerIdentifier) (m : Moment) (t : State ι) :
    (exec i (.countPeers id) m t).2 = t := by
  cases m with
  | mk now fault => cases fault <;> rfl

/-- The row is locked when it is found. -/
theorem exec_selectForUpdate (i : ι) (id : PeerIdentifier) (m : Moment) (t : State ι) :
    (∃ err, exec i (.selectForUpdate id) m t = (.error err, t)) ∨
      ∃ row, t.lockedByOther i id = false ∧ t.status i id = some row ∧
        exec i (.selectForUpdate id) m t =
          (.ok row, { t with toStatusSessions := t.lock i [id] }) := by
  cases m with
  | mk now fault =>
    cases fault with
    | some err => exact .inl ⟨err, rfl⟩
    | none =>
      cases free : t.lockedByOther i id with
      | true => exact .inl ⟨lockWaitTimeout, by simp [exec, StatusOp.exec, StatusOp.perform, free]⟩
      | false =>
        cases found : t.status i id with
        | none =>
          exact .inl ⟨.notFound, by simp [exec, StatusOp.exec, StatusOp.perform, free, found]⟩
        | some row =>
          exact .inr ⟨row, rfl, rfl, by
            simp [exec, StatusOp.exec, StatusOp.perform, free, found]⟩

theorem exec_firstOrCreate (i : ι) (defaults : PeerStatus) (m : Moment) (t : State ι) :
    (exec i (.firstOrCreate defaults) m t).2 = t ∨
      t.lockedByOther i defaults.peerId = false ∧ t.status i defaults.peerId = none ∧
        (exec i (.firstOrCreate defaults) m t).2 =
          { t with toStatusSessions := t.write i [defaults] } := by
  cases m with
  | mk now fault =>
    cases fault with
    | some err => exact .inl rfl
    | none =>
      cases found : t.status i defaults.peerId with
      | some row => exact .inl (by simp [exec, StatusOp.exec, StatusOp.perform, found])
      | none =>
        cases free : t.lockedByOther i defaults.peerId with
        | true => exact .inl (by simp [exec, StatusOp.exec, StatusOp.perform, found, free])
        | false =>
          exact .inr ⟨rfl, rfl, by simp [exec, StatusOp.exec, StatusOp.perform, found, free]⟩

theorem exec_save (i : ι) (rows : List PeerStatus) (m : Moment) (t : State ι) :
    (exec i (.save rows) m t).2 = t ∨
      (∀ row ∈ rows, t.lockedByOther i row.peerId = false) ∧
        (exec i (.save rows) m t).2 = { t with toStatusSessions := t.write i rows } := by
  cases m with
  | mk now fault =>
    cases fault with
    | some err => exact .inl rfl
    | none =>
      cases free : rows.any fun row => t.lockedByOther i row.peerId with
      | true => exact .inl (by simp [exec, StatusOp.exec, StatusOp.perform, free])
      | false =>
        refine .inr ⟨?_, by simp [exec, StatusOp.exec, StatusOp.perform, free]⟩
        simpa using free

theorem exec_commit (i : ι) (m : Moment) (t : State ι) :
    (exec i .commit m t).2 = { t with toStatusSessions := t.rollback i } ∨
      (exec i .commit m t).2 = { t with toStatusSessions := t.commit i } := by
  cases m with
  | mk now fault =>
    cases fault with
    | some err => exact .inl rfl
    | none => exact .inr rfl

theorem exec_rollback (i : ι) (m : Moment) (t : State ι) :
    (exec i .rollback m t).2 = { t with toStatusSessions := t.rollback i } := by
  cases m with
  | mk now fault => cases fault <;> rfl

theorem mem_upsertAll {row : PeerStatus} {rows : List PeerStatus}
    {t : Table PeerStatus.peerId} (h : row ∈ (t.upsertAll rows).rows) : row ∈ rows ∨ row ∈ t.rows := by
  induction rows generalizing t with
  | nil => exact .inr h
  | cons first rows ih =>
    have rest : row ∈ ((t.upsert first).upsertAll rows).rows := h
    have among := ih rest
    rw [Table.mem_upsert] at among
    simp only [List.mem_cons]
    tauto

/-- The session locks rows that nobody else has locked, and may write them. -/
theorem keeps_write {i : ι} {call : Call} {s : State ι} (inv : (contract ι).inv s)
    (running : s.running i = some call) {rows : List PeerStatus}
    (free : ∀ row ∈ rows, s.lockedByOther i row.peerId = false)
    (allowed : ∀ row ∈ rows, call.Allows (s.db.peerStatuses.find row.peerId) row) :
    (contract ι).Keeps i s { s with toStatusSessions := s.write i rows } := by
  have locks : ∀ id ∈ rows.map PeerStatus.peerId, s.lockedByOther i id = false := by
    intro id hid
    obtain ⟨row, hrow, rfl⟩ := List.mem_map.mp hid
    exact free row hrow
  refine keeps_of_unmoved inv (fun j other => ?_) ?_
  · exact unmoved_lock other locks rfl rfl (Function.update_of_ne other ..) rfl
  · have mine := inv i
    simp only [Covered, running] at mine ⊢
    simp only [StatusSessions.write, Function.update_self]
    intro row hrow
    rcases mem_upsertAll hrow with new | old
    · exact ⟨if_pos (List.mem_map_of_mem new), allowed row new⟩
    · refine ⟨?_, (mine row old).2⟩
      simp only [StatusSessions.lock, (mine row old).1, ite_self]

/-- The locks of other sessions stay. -/
theorem locked_rollback {i j : ι} {s : State ι} {id : PeerIdentifier} (other : j ≠ i)
    (held : s.locked id = some j) : (s.rollback i).locked id = some j := by
  have kept : some j ≠ some i := by simpa using other
  simp only [StatusSessions.rollback, held, kept, if_false]

theorem keeps_rollback {i : ι} {call : Call} {s : State ι} (inv : (contract ι).inv s)
    (running : s.running i = some call) :
    (contract ι).Keeps i s { s with toStatusSessions := s.rollback i } ∧
      Ready call i { s with toStatusSessions := s.rollback i } := by
  have ready : Ready call i { s with toStatusSessions := s.rollback i } :=
    ⟨running, Function.update_self ..⟩
  refine ⟨keeps_of_unmoved inv (fun j other => ?_) ready.covered, ready⟩
  exact ⟨Function.update_of_ne other .., rfl, fun id held => ⟨locked_rollback other held, rfl⟩⟩

/-- The rows that others have locked are not among those that are written. -/
theorem keeps_commit {i : ι} {call : Call} {s : State ι} (inv : (contract ι).inv s)
    (running : s.running i = some call) :
    (contract ι).Keeps i s { s with toStatusSessions := s.commit i } ∧
      Ready call i { s with toStatusSessions := s.commit i } := by
  have mine := inv i
  simp only [Covered, running] at mine
  have ready : Ready call i { s with toStatusSessions := s.commit i } :=
    ⟨running, Function.update_self ..⟩
  refine ⟨keeps_of_unmoved inv (fun j other => ?_) ready.covered, ready⟩
  refine ⟨Function.update_of_ne other .., rfl, fun id held => ⟨locked_rollback other held, ?_⟩⟩
  rcases Table.find_upsertAll s.db.peerStatuses (s.written i).rows id with
    ⟨row, written, same, _⟩ | ⟨_, found⟩
  · have locked := (mine row written).1
    rw [same, held] at locked
    exact absurd (Option.some.inj locked) other
  · exact found

theorem sound_selectForUpdate {call : Call} {i : ι} {next : List PeerStatus} {s : State ι}
    (id : PeerIdentifier) (reading : Reading call i next s) :
    Sound i (ReadIf call i next id) (issue (.selectForUpdate id)) s := by
  refine sound_issue stable_reading (fun _ _ _ same post => post.unmoved same)
    (fun m t reading inv => ?_) reading
  rcases exec_selectForUpdate i id m t with ⟨err, failed⟩ | ⟨row, free, found, read⟩
  · rw [failed]
    refine ⟨keeps_of_unmoved inv (fun j _ => (contract ι).refl j t) (inv i), reading, ?_⟩
    intro row h
    cases h
  · rw [read]
    have locks : ∀ other ∈ [id], t.lockedByOther i other = false := by simpa using free
    have mine : Covered { t with toStatusSessions := t.lock i [id] } i := by
      have mine := inv i
      simp only [Covered, reading.running] at mine ⊢
      intro row hrow
      refine ⟨?_, (mine row hrow).2⟩
      simp only [StatusSessions.lock, (mine row hrow).1, ite_self]
    refine ⟨keeps_of_unmoved inv (fun j other => unmoved_lock other locks rfl rfl rfl rfl) mine,
      ⟨reading.running, fun row hrow => ?_, fun row hrow => ?_⟩, fun row' same => ?_⟩
    · exact (reading.held row hrow).locks rfl (lock_locked_of_own _)
    · have new := reading.new row hrow
      refine ⟨?_, new.2⟩
      simp only [StatusSessions.lock, new.1, ite_self]
    · obtain rfl := Except.ok.inj same
      have locked : (t.lock i [id]).locked id = some i := if_pos (List.mem_singleton.mpr rfl)
      simp only [StatusSessions.status] at found
      cases written : (t.written i).find id with
      | some own =>
        rw [written, Option.some_or] at found
        obtain rfl := Option.some.inj found
        have new := (reading.new own (Table.mem_of_find written)).2
        rw [Table.key_of_find written] at new
        refine ⟨Table.key_of_find written, locked, fun old stored => ?_⟩
        exact absurd (stored.symm.trans new) (by simp)
      | none =>
        rw [written, Option.none_or] at found
        refine ⟨Table.key_of_find found, locked, fun old stored => ?_⟩
        exact Option.some.inj (stored.symm.trans found)

theorem sound_firstOrCreate {call : Call} {i : ι} {next : List PeerStatus} {s : State ι}
    (defaults : PeerStatus) (reading : Reading call i next s) :
    Sound i (fun _ => Reading call i next) (issue (.firstOrCreate defaults)) s := by
  refine sound_issue stable_reading (fun _ => stable_reading) (fun m t reading inv => ?_) reading
  rcases exec_firstOrCreate i defaults m t with same | ⟨free, none, created⟩
  · rw [same]
    exact ⟨keeps_of_unmoved inv (fun j _ => (contract ι).refl j t) (inv i), reading⟩
  · rw [created]
    have new : t.db.peerStatuses.find defaults.peerId = Option.none := by
      simp only [StatusSessions.status, Option.or_eq_none_iff] at none
      exact none.2
    refine ⟨keeps_write inv reading.running (by simpa using free) ?_, reading.running, ?_, ?_⟩
    · intro row hrow old node stored
      rw [List.mem_singleton.mp hrow, new] at stored
      cases stored
    · exact fun row hrow => (reading.held row hrow).locks rfl (lock_locked_of_own _)
    · intro row hrow
      simp only [StatusSessions.write, Function.update_self] at hrow ⊢
      rcases mem_upsertAll hrow with here | before
      · rw [List.mem_singleton.mp here]
        exact ⟨if_pos (List.mem_singleton.mpr rfl), new⟩
      · have old := reading.new row before
        refine ⟨?_, old.2⟩
        simp only [StatusSessions.lock, old.1, ite_self]

theorem sound_save {call : Call} {i : ι} {s : State ι} {rows : List PeerStatus}
    (reading : Reading call i rows s) :
    Sound i (fun _ t => t.running i = some call) (issue (.save rows)) s := by
  let P := fun t : State ι => t.running i = some call ∧ ∀ row ∈ rows, Held call i row t
  have stable : ∀ s t, Unmoved i s t → P s → P t := fun s t same holds =>
    ⟨same.running.trans holds.1, fun row hrow => (holds.2 row hrow).unmoved same⟩
  refine sound_issue (P := P) stable (fun _ s t same => same.running.trans) ?_
    ⟨reading.running, reading.held⟩
  intro m t holds inv
  rcases exec_save i rows m t with same | ⟨free, saved⟩
  · rw [same]
    exact ⟨keeps_of_unmoved inv (fun j _ => (contract ι).refl j t) (inv i), holds.1⟩
  · rw [saved]
    exact ⟨keeps_write inv holds.1 free fun row hrow => (holds.2 row hrow).allowed, holds.1⟩

theorem sound_commit {call : Call} {i : ι} {s : State ι} (running : s.running i = some call) :
    Sound i (fun _ => Ready call i) (issue .commit) s := by
  refine sound_issue stable_running (fun _ s t same ready => ready.unmoved same) ?_ running
  intro m t running inv
  rcases exec_commit i m t with done | done <;> rw [done]
  · exact keeps_rollback inv running
  · exact keeps_commit inv running

theorem sound_rollback {call : Call} {i : ι} {s : State ι} (running : s.running i = some call) :
    Sound i (fun _ => Ready call i) (issue .rollback) s := by
  refine sound_issue stable_running (fun _ s t same ready => ready.unmoved same) ?_ running
  intro m t running inv
  rw [exec_rollback]
  exact keeps_rollback inv running

theorem sound_ret {i : ι} {β : Type} {P : State ι → Prop} (b : β)
    (stable : ∀ s t, Unmoved i s t → P s → P t) {s : State ι} (holds : P s) :
    Sound i (fun _ => P) (pure b) s := fun t same _ => stable s t same holds

/-- The body of a transaction leaves it open. -/
theorem sound_transaction {call : Call} {i : ι} {body : StatusProgram (Except Error Unit)}
    (sound : ∀ s, (contract ι).inv s → Reading call i [] s →
      Sound i (fun _ t => t.running i = some call) body s)
    {s : State ι} (inv : (contract ι).inv s) (ready : Ready call i s) :
    Sound i (fun _ => Ready call i) (transaction body) s := by
  have stable : ∀ s t, Unmoved i s t → Ready call i s → Ready call i t :=
    fun _ _ same ready => ready.unmoved same
  refine (sound_passive stable (exec_begin i) ready).bind inv fun began t inv ready => ?_
  cases began with
  | error err => exact sound_ret _ stable ready
  | ok =>
    refine (sound t inv ready.reading).bind inv fun result t inv running => ?_
    cases result with
    | error err =>
      refine (sound_rollback running).bind inv fun _ t _ ready => ?_
      exact sound_ret _ stable ready
    | ok => exact sound_commit running

theorem sound_retryOnConflict {call : Call} {i : ι} {failure : String}
    {body : ℕ → StatusProgram (Except Error Unit)}
    (sound : ∀ attempt s, (contract ι).inv s → Reading call i [] s →
      Sound i (fun _ t => t.running i = some call) (body attempt) s)
    (attempt retries : ℕ) {s : State ι} (inv : (contract ι).inv s) (ready : Ready call i s) :
    Sound i (fun _ => Ready call i) (retryOnConflict failure body attempt retries) s := by
  have stable : ∀ s t, Unmoved i s t → Ready call i s → Ready call i t :=
    fun _ _ same ready => ready.unmoved same
  induction retries generalizing attempt s with
  | zero =>
    refine (sound_transaction (sound attempt) inv ready).bind inv fun result t _ ready => ?_
    cases result <;> exact sound_ret _ stable ready
  | succ retries ih =>
    refine (sound_transaction (sound attempt) inv ready).bind inv fun result t inv ready => ?_
    cases result with
    | ok => exact sound_ret _ stable ready
    | error err =>
      simp only
      split
      · exact sound_ret _ stable ready
      · refine (sound_passive stable (exec_wait i) ready).bind inv fun waited t inv ready => ?_
        cases waited with
        | some ctxErr => exact sound_ret _ stable ready
        | none => exact ih (attempt + 1) inv ready

theorem sound_getOrCreatePeerStatus {call : Call} {i : ι} {next : List PeerStatus}
    (id : PeerIdentifier) {s : State ι} (inv : (contract ι).inv s)
    (reading : Reading call i next s) :
    Sound i (ReadIf call i next id) (getOrCreatePeerStatus id) s := by
  have ret : ∀ (answer : Except Error PeerStatus) {t : State ι}, ReadIf call i next id answer t →
      Sound i (ReadIf call i next id) (pure answer) t := fun _ _ post _ same _ => post.unmoved same
  have failed : ∀ (err : Error) {t : State ι}, Reading call i next t →
      Sound i (ReadIf call i next id) (pure (.error err)) t :=
    fun err _ reading => ret _ ⟨reading, fun row h => by cases h⟩
  refine (sound_passive stable_reading (exec_timeNow i) reading).bind inv
    fun now t inv reading => ?_
  refine (sound_selectForUpdate id reading).bind inv fun answer t inv post => ?_
  cases answer with
  | ok row => exact ret _ post
  | error err =>
    simp only
    split
    · exact failed err post.reading
    · refine (sound_passive stable_reading (exec_countPeers i id) post.reading).bind inv
        fun count t inv reading => ?_
      split
      · exact failed _ reading
      · exact failed _ reading
      · refine (sound_firstOrCreate _ reading).bind inv fun created t inv reading => ?_
        cases created with
        | error err => exact failed err reading
        | ok row =>
          refine (sound_selectForUpdate id reading).bind inv fun answer t inv post => ?_
          cases answer with
          | error err => exact failed _ post.reading
          | ok row => exact ret _ post

/-- What an update stores for a connected peer of another node has its state. -/
theorem ownedUpdate_sameState {clusterNodeId node : String} {old : PeerStatus}
    (owned : OwnedBy old node) (other : clusterNodeId ≠ node) (new : PeerStatus) :
    SameState old (ownedUpdate clusterNodeId old new) := by
  have foreign : (old.isConnected && old.ownerNodeId ≠ "" && old.ownerNodeId ≠ clusterNodeId) =
      true := by
    simp [owned.connected, owned.owner, owned.named, other.symm]
  simp only [ownedUpdate]
  rw [if_pos foreign, if_neg (by simp [owned.connected])]
  exact ⟨rfl, rfl, rfl⟩

theorem peerId_ownedUpdate (clusterNodeId : String) (old new : PeerStatus) :
    (ownedUpdate clusterNodeId old new).peerId = new.peerId := by
  simp only [ownedUpdate]
  split <;> split <;> rfl

theorem sound_updateOnce {i : ι} (cfg : Config) (id : PeerIdentifier) (updateFunc : StatusUpdate)
    {s : State ι} (inv : (contract ι).inv s) (reading : Reading (.update cfg id updateFunc) i [] s) :
    Sound i (fun _ t => t.running i = some (.update cfg id updateFunc))
      (updateOnce cfg id updateFunc) s := by
  refine (sound_passive stable_reading (exec_countPeers i id) reading).bind inv
    fun count t inv reading => ?_
  split
  · exact sound_ret _ stable_running reading.running
  · exact sound_ret _ stable_running reading.running
  · refine (sound_getOrCreatePeerStatus id inv reading).bind inv fun answer t inv post => ?_
    cases answer with
    | error err => exact sound_ret _ stable_running post.reading.running
    | ok old =>
      cases updated : updateFunc.apply old with
      | error err =>
        simp only [updated]
        exact sound_ret _ stable_running post.reading.running
      | ok new =>
        simp only [updated]
        refine sound_save ⟨post.reading.running, fun row hrow => ?_, post.reading.new⟩
        have read := post.row old rfl
        rw [List.mem_singleton.mp hrow]
        have name : (ownedUpdate cfg.core.clusterNodeId old new).peerId = id := by
          rw [peerId_ownedUpdate, updateFunc.peerId old new updated, read.peerId]
        refine ⟨name ▸ read.locked, fun stored node found owned => ?_⟩
        rw [name] at found
        obtain rfl := read.current stored found
        by_cases own : cfg.core.clusterNodeId = node
        · exact .inl own
        · exact .inr (ownedUpdate_sameState owned own new)

theorem sound_claimOnce {i : ι} (id : PeerIdentifier) (ownerNodeId : String)
    (updateFunc : StatusUpdate) {s : State ι} (inv : (contract ι).inv s)
    (reading : Reading (.claim id ownerNodeId updateFunc) i [] s) :
    Sound i (fun _ t => t.running i = some (.claim id ownerNodeId updateFunc))
      (claimOnce id ownerNodeId updateFunc) s := by
  refine (sound_getOrCreatePeerStatus id inv reading).bind inv fun answer t inv post => ?_
  cases answer with
  | error err => exact sound_ret _ stable_running post.reading.running
  | ok old =>
    refine (sound_passive (fun _ _ same (post : ReadIf _ i [] id (.ok old) _) => post.unmoved same)
      (exec_timeNow i) post).bind inv fun now t inv post => ?_
    split
    · exact sound_ret _ stable_running post.reading.running
    · rename_i new updated
      refine sound_save ⟨post.reading.running, fun row hrow => ?_, post.reading.new⟩
      have read := post.row old rfl
      rw [List.mem_singleton.mp hrow]
      have name : new.peerId = id := (updateFunc.peerId _ new updated).trans read.peerId
      exact ⟨name ▸ read.locked, fun _ _ _ _ => .inl trivial⟩

theorem sound_updatedStatuses {i : ι} {call : Call}
    (updates : List (PeerIdentifier × StatusUpdate)) {next : List PeerStatus} {s : State ι}
    (inv : (contract ι).inv s) (reading : Reading call i next s) :
    Sound i (Collected call i next) (updatedStatuses updates) s := by
  have failed : ∀ (err : Error) {next : List PeerStatus} {t : State ι}, t.running i = some call →
      Sound i (Collected call i next) (pure (.error err)) t :=
    fun err _ _ running u same _ => ⟨same.running.trans running, fun _ h => by cases h⟩
  induction updates generalizing next s with
  | nil =>
    intro t same _
    refine ⟨same.running.trans reading.running, fun rows h => ?_⟩
    rw [← Except.ok.inj h]
    exact reading.unmoved same
  | cons first updates ih =>
    refine (sound_passive stable_reading (exec_countPeers i first.1) reading).bind inv
      fun count t inv reading => ?_
    split
    · exact failed _ reading.running
    · exact ih inv reading
    · refine (sound_getOrCreatePeerStatus first.1 inv reading).bind inv fun answer t inv post => ?_
      cases answer with
      | error err => exact failed err post.reading.running
      | ok old =>
        simp only
        split
        · exact ih inv post.reading
        · rename_i unowned
          split
          · exact failed _ post.reading.running
          · rename_i new updated
            have read := post.row old rfl
            have name : new.peerId = first.1 :=
              (first.2.peerId old new updated).trans read.peerId
            -- a row without an owner may be replaced by any session that has locked it
            have held : Held call i new t := by
              refine ⟨name ▸ read.locked, fun stored node found owned => ?_⟩
              rw [name] at found
              have none : stored.ownerNodeId = "" := by
                rw [read.current stored found]
                simpa using unowned
              exact absurd (owned.owner.symm.trans none) owned.named
            have more : Reading call i (new :: next) t := by
              refine ⟨post.reading.running, fun row hrow => ?_, post.reading.new⟩
              rcases List.mem_cons.mp hrow with rfl | before
              · exact held
              · exact post.reading.held row before
            refine (ih inv more).bind inv fun result t inv post => ?_
            cases result with
            | error err => exact failed err post.running
            | ok rows =>
              refine fun u same _ => ⟨same.running.trans post.running, fun all h => ?_⟩
              have later := (post.reading rows rfl).unmoved same
              rw [← Except.ok.inj h]
              refine ⟨later.running, fun row hrow => later.held row ?_, later.new⟩
              simp only [List.cons_append, List.mem_cons, List.mem_append] at hrow ⊢
              tauto

theorem sound_batchOnce {i : ι} {call : Call} (updates : List (PeerIdentifier × StatusUpdate))
    {s : State ι} (inv : (contract ι).inv s) (reading : Reading call i [] s) :
    Sound i (fun _ t => t.running i = some call) (batchOnce updates) s := by
  refine (sound_updatedStatuses updates inv reading).bind inv fun result t inv post => ?_
  split
  · exact sound_ret _ stable_running post.running
  · exact sound_ret _ stable_running post.running
  · rename_i rows _
    refine sound_save ?_
    have all := post.reading rows rfl
    rwa [List.append_nil] at all

/-- A call does what it may, and leaves nothing that it has not committed. -/
theorem sound_program {i : ι} (call : Call) {s : State ι} (inv : (contract ι).inv s)
    (ready : Ready call i s) : Sound i (fun _ => Ready call i) call.program s := by
  have stable : ∀ s t, Unmoved i s t → Ready call i s → Ready call i t :=
    fun _ _ same ready => ready.unmoved same
  cases call with
  | update cfg id updateFunc =>
    exact sound_retryOnConflict (fun _ _ => sound_updateOnce cfg id updateFunc) 0 9 inv ready
  | claim id ownerNodeId updateFunc =>
    simp only [Call.program, claimPeerStatus]
    split
    · exact sound_ret _ stable ready
    · exact sound_retryOnConflict (fun _ _ => sound_claimOnce id ownerNodeId updateFunc) 0 9 inv
        ready
  | batch updates =>
    simp only [Call.program, batchUpdatePeerStatuses]
    split
    · exact sound_ret _ stable ready
    · exact sound_retryOnConflict (fun attempt _ => sound_batchOnce (updates attempt)) 0 4 inv
        ready

/-- The calls of the other sessions go on. -/
theorem keeps_running {s : State ι} {i : ι} {running : Option Call} (inv : (contract ι).inv s)
    (mine : Covered { s with running := Function.update s.running i running } i) :
    (contract ι).Keeps i s { s with running := Function.update s.running i running } :=
  keeps_of_unmoved inv
    (fun _ other => ⟨rfl, Function.update_of_ne other .., fun _ held => ⟨held, rfl⟩⟩) mine

theorem upheld : Contract.Upheld (system ι) (contract ι) guard where
  env := by
    intro e s t inv _ step
    exact ⟨fun i => (inv i).unmoved (unmoved_env step i), unmoved_env step⟩
  start := by
    intro i call s prog t inv _ step
    simp only [system] at step
    split at step
    · cases step
    · rename_i idle
      obtain ⟨rfl, rfl⟩ := Prod.mk.inj (Option.some.inj step)
      have mine := inv i
      simp only [Covered, idle] at mine
      have ready : Ready call i { s with running := Function.update s.running i (some call) } :=
        ⟨Function.update_self .., mine⟩
      have keeps := keeps_running inv ready.covered
      refine ⟨keeps, (sound_program call keeps.1 ready).mono fun result u inv ready => ?_⟩
      refine keeps_running inv ?_
      simp only [Covered, Function.update_self]
      exact ready.written

abbrev StatusPool (ι : Type) := Pool ι StatusOp StatusOp.Res (Except Error Unit) (State ι)

abbrev StatusTurn (ι : Type) := Turn ι Env Call Moment

/-- A turn leaves the state of a connected peer that a node owns as it is, unless
it deletes the row or belongs to a claim or an update of that node. -/
def OwnerDecides (p : StatusPool ι) (turn : StatusTurn ι) (q : StatusPool ι) : Prop :=
  ∀ id row node, p.shared.db.peerStatuses.find id = some row → OwnedBy row node →
    (∃ row', q.shared.db.peerStatuses.find id = some row' ∧ SameState row row') ∨
      (∃ e, turn = .env e ∧ q.shared.db.peerStatuses.find id = none) ∨
      ∃ i m call, turn = .step i m ∧ p.shared.running i = some call ∧ call.MayChange node

/-- Only a commit changes statuses, and it stores what its call may store. -/
theorem find_exec {s : State ι} (inv : (contract ι).inv s) (i : ι) (op : StatusOp) (m : Moment)
    {id : PeerIdentifier} {row : PeerStatus} (stored : s.db.peerStatuses.find id = some row)
    {node : String} (owned : OwnedBy row node) :
    (∃ row', (exec i op m s).2.db.peerStatuses.find id = some row' ∧ SameState row row') ∨
      ∃ call, s.running i = some call ∧ call.MayChange node := by
  have same : SameState row row := ⟨rfl, rfl, rfl⟩
  have unchanged : ∀ t : State ι, t.db = s.db →
      ∃ row', t.db.peerStatuses.find id = some row' ∧ SameState row row' := by
    intro t db
    rw [db]
    exact ⟨row, stored, same⟩
  cases op with
  | timeNow => exact .inl (unchanged _ (by rw [exec_timeNow]))
  | wait => exact .inl (unchanged _ (by rw [exec_wait]))
  | begin => exact .inl (unchanged _ (by rw [exec_begin]))
  | countPeers other => exact .inl (unchanged _ (by rw [exec_countPeers]))
  | selectForUpdate other =>
    refine .inl (unchanged _ ?_)
    rcases exec_selectForUpdate i other m s with ⟨err, failed⟩ | ⟨_, _, _, read⟩
    · rw [failed]
    · rw [read]
      rfl
  | firstOrCreate defaults =>
    refine .inl (unchanged _ ?_)
    rcases exec_firstOrCreate i defaults m s with done | ⟨_, _, done⟩ <;> rw [done]
    rfl
  | save rows =>
    refine .inl (unchanged _ ?_)
    rcases exec_save i rows m s with done | ⟨_, done⟩ <;> rw [done]
    rfl
  | rollback =>
    refine .inl (unchanged _ ?_)
    rw [exec_rollback]
    rfl
  | commit =>
    rcases exec_commit i m s with done | done <;> rw [done]
    · exact .inl (unchanged _ rfl)
    · rcases Table.find_upsertAll s.db.peerStatuses (s.written i).rows id with
        ⟨row', written, key, found⟩ | ⟨_, found⟩
      · have mine := inv i
        unfold Covered at mine
        split at mine
        · rw [mine] at written
          cases written
        · rename_i call running
          have before : s.db.peerStatuses.find row'.peerId = some row := key ▸ stored
          rcases (mine row' written).2 row node before owned with may | kept
          · exact .inr ⟨call, running, may⟩
          · exact .inl ⟨row', found, kept⟩
      · exact .inl ⟨row, found.trans stored, same⟩

/-- An update that sets whether the peer is connected. -/
def setConnected (isConnected : Bool) : StatusUpdate where
  apply := fun status => .ok { status with isConnected := isConnected }
  peerId := by
    intro old new updated
    rw [← Except.ok.inj updated]

def nodeConfig (clusterNodeId : String) : Config :=
  { defaultConfig with core := { defaultConfig.core with clusterNodeId := clusterNodeId } }

def sampleDb : Db := Db.empty.commitPeer "admin" 0 "p" { Peer.zero with identifier := "p" }

/-- `node-a` claims the peer and finds it connected, `node-b` finds it offline; the
update of `node-b` is about to be committed. -/
def claimed : List (StatusTurn ℕ) :=
  let turns (i n : ℕ) : List (StatusTurn ℕ) := List.replicate n (.step i ⟨0, none⟩)
  Turn.start 0 (.claim "p" "node-a" (setConnected true)) :: turns 0 7 ++
    Turn.start 1 (.update (nodeConfig "node-b") "p" (setConnected false)) :: turns 1 5

def sampleState (p : StatusPool ℕ) : Option (Bool × String) :=
  (p.shared.db.peerStatuses.find "p").map fun status => (status.isConnected, status.ownerNodeId)

end WgPortal.Adapters.StatusOwnership
