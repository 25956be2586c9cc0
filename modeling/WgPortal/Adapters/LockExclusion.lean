import Mathlib.Algebra.Order.Ring.Int
import WgPortal.Adapters.NodeSyncLock
import WgPortal.Library.Interleaving

/-! Mutual exclusion of the distributed lock. Any number of nodes run
`acquireLock`, `releaseLock` and `cleanupExpiredLocks` statement by statement on
one table, with synchronised clocks. The state records the locks that an
`acquireLock` obtained and its node has not released yet. -/

namespace WgPortal.Adapters.LockExclusion

open Domain Library System

structure State where
  now : Time
  locks : LockTable
  grants : List NodeSyncLock

inductive Call where
  | acquire (lockKey nodeID : String) (duration : Duration)
  | release (lockKey nodeID : String)
  | cleanup

def program : Call → LockProgram (Option Error)
  | .acquire lockKey nodeID duration => do
    let result ← acquireLock lockKey nodeID duration
    return result.2
  | .release lockKey nodeID => releaseLock lockKey nodeID
  | .cleanup => cleanupExpiredLocks

/-- The grants after a statement: an `INSERT` that succeeds is an acquired lock,
a `DELETE` of one's own lock releases it. -/
def record : (op : LockOp) → op.Res → List NodeSyncLock → List NodeSyncLock
  | .sql (.create lock), .ok _, grants => lock :: grants
  | .sql (.deleteOwned lockKey nodeID), .ok _, grants =>
    grants.filter fun g => !(g.lockKey = lockKey && g.nodeID = nodeID)
  | _, _, grants => grants

def exec (fault : Option Error) (op : LockOp) (s : State) : op.Res × State :=
  let answer := op.exec s.now fault s.locks
  (answer.1, ⟨s.now, answer.2, record op answer.1 s.grants⟩)

/-- Threads are numbered; the environment lets time pass. -/
def system : System ℕ ℕ Call LockOp LockOp.Res (Option Error) (Option Error) State where
  exec := fun _ op fault s => exec fault op s
  env := fun elapsed s => some { s with now := s.now + elapsed }
  start := fun _ call s => some (program call, s)
  finish := fun _ _ s => s

def Live (s : State) (lock : NodeSyncLock) : Prop := lock.expiresAt.before s.now = false

instance (s : State) (lock : NodeSyncLock) : Decidable (Live s lock) :=
  inferInstanceAs (Decidable (_ = _))

/-- The node acquired the lock, has not released it, and it has not expired. -/
def Holds (s : State) (lockKey nodeID : String) : Prop :=
  ∃ g ∈ s.grants, g.lockKey = lockKey ∧ g.nodeID = nodeID ∧ Live s g

def MutualExclusion (s : State) : Prop :=
  ∀ lockKey n m, Holds s lockKey n → Holds s lockKey m → n = m

/-- Whenever the best-effort `Delete(&lock)` runs, the row it finds has expired. -/
def guard : Guard ℕ ℕ Call LockOp (Option Error) State where
  env := fun _ _ => True
  start := fun _ _ _ => True
  step := fun s _ op _ => match op with
    | .sql (.delete lock) => ∀ row ∈ s.locks.find lock.lockKey, ¬ Live s row
    | _ => True

instance (s : State) (elapsed : ℕ) : Decidable (guard.env s elapsed) := isTrue trivial

instance (s : State) (i : ℕ) (call : Call) : Decidable (guard.start s i call) := isTrue trivial

instance (s : State) (i : ℕ) (op : LockOp) (fault : Option Error) :
    Decidable (guard.step s i op fault) :=
  match op with
  | .timeNow => isTrue trivial
  | .sql stmt =>
    match stmt with
    | .delete lock =>
      inferInstanceAs (Decidable (∀ row ∈ s.locks.find lock.lockKey, ¬ Live s row))
    | .deleteExpired .. | .create .. | .first .. | .deleteOwned .. | .deleteAllExpired .. =>
      isTrue trivial

/-- Every live grant is the row stored under its key. -/
def Backed (s : State) : Prop := ∀ g ∈ s.grants, Live s g → s.locks.find g.lockKey = some g

/-- A thread relies on the clock only. -/
def contract : Contract ℕ State where
  inv := Backed
  rely := fun _ s t => s.now ≤ t.now
  refl := fun _ s => le_refl s.now
  trans := fun _ _ _ _ => le_trans

theorem Backed.mutualExclusion {s : State} (backed : Backed s) : MutualExclusion s := by
  rintro lockKey n m ⟨g, hg, gKey, rfl, gLive⟩ ⟨h, hh, hKey, rfl, hLive⟩
  have gRow := backed g hg gLive
  have hRow := backed h hh hLive
  rw [gKey] at gRow
  rw [hKey, gRow] at hRow
  rw [Option.some.inj hRow]

theorem Backed.tick {s : State} (backed : Backed s) (elapsed : ℕ) :
    Backed { s with now := s.now + elapsed } := by
  intro g hg live
  have before : Live s g := by
    simp only [Live, Time.before, decide_eq_false_iff_not] at live ⊢
    lia
  exact backed g hg before

/-- Rows that are not stored for a live grant may be deleted. -/
theorem Backed.filter {s : State} (backed : Backed s) {keep : NodeSyncLock → Bool}
    {grants : List NodeSyncLock} (fewer : grants ⊆ s.grants)
    (kept : ∀ g ∈ grants, Live s g → s.locks.find g.lockKey = some g → keep g = true) :
    Backed ⟨s.now, s.locks.filter keep, grants⟩ := by
  intro g hg live
  have row := backed g (fewer hg) live
  have stays := kept g hg live row
  rw [Table.find_filter, row, Option.filter_some, if_pos stays]

theorem Backed.create {s : State} (backed : Backed s) {lock : NodeSyncLock} {locks : LockTable}
    (inserted : s.locks.insert lock = some locks) : Backed ⟨s.now, locks, lock :: s.grants⟩ := by
  intro g hg live
  rw [Table.find_insert inserted]
  rcases List.mem_cons.mp hg with rfl | older
  · rw [if_pos rfl]
  · have row := backed g older live
    have fresh := Table.insert_fresh inserted
    have other : lock.lockKey ≠ g.lockKey := by
      intro same
      rw [same, row] at fresh
      cases fresh
    rw [if_neg other, row]

/-- The limits of the statements that remove expired rows lie in the past. -/
def Timely (s : State) : LockOp → Prop
  | .sql (.deleteExpired _ limit) => limit ≤ s.now
  | .sql (.deleteAllExpired limit) => limit ≤ s.now
  | _ => True

theorem not_before_limit {s : State} {g : NodeSyncLock} {limit : Time} (live : Live s g)
    (past : limit ≤ s.now) : g.expiresAt.before limit = false := by
  simp only [Live, Time.before, decide_eq_false_iff_not] at live ⊢
  lia

/-- What one statement preserves. -/
theorem exec_backed {s : State} {op : LockOp} {fault : Option Error} (i : ℕ)
    (backed : Backed s) (timely : Timely s op) (allowed : guard.step s i op fault) :
    Backed (exec fault op s).2 := by
  cases op with
  | timeNow => exact backed
  | sql stmt =>
    cases fault with
    | some err => cases stmt <;> exact backed
    | none =>
      cases stmt with
      | deleteExpired lockKey limit =>
        refine backed.filter (List.Subset.refl _) ?_
        intro g _ live _
        simp [not_before_limit live timely]
      | create lock =>
        simp only [exec, LockOp.exec, LockStmt.apply]
        cases inserted : s.locks.insert lock with
        | none => exact backed
        | some locks => exact backed.create inserted
      | first lockKey =>
        simp only [exec, LockOp.exec, LockStmt.apply]
        cases s.locks.find lockKey <;> exact backed
      | delete lock =>
        refine backed.filter (List.Subset.refl _) ?_
        intro g _ live row
        have other : g.lockKey ≠ lock.lockKey := by
          intro same
          exact allowed g (same ▸ row) live
        simp [other]
      | deleteOwned lockKey nodeID =>
        refine backed.filter (fun _ h => (List.mem_filter.mp h).1) ?_
        intro g hg _ _
        have kept := (List.mem_filter.mp hg).2
        revert kept
        cases decide (g.lockKey = lockKey) <;> cases decide (g.nodeID = nodeID) <;> simp
      | deleteAllExpired limit =>
        refine backed.filter (List.Subset.refl _) ?_
        intro g _ live _
        simp [not_before_limit live timely]

theorem exec_keeps {s : State} {op : LockOp} {fault : Option Error} {i : ℕ}
    (backed : Backed s) (timely : Timely s op) (allowed : guard.step s i op fault) :
    contract.Keeps i s (exec fault op s).2 :=
  ⟨exec_backed i backed timely allowed, fun _ _ => le_refl s.now⟩

abbrev Sound (i : ℕ) : LockProgram (Option Error) → State → Prop :=
  contract.Sound system guard i (contract.Finishes system i)

/-- A thread may go on with an operation that is timely whenever it runs. -/
theorem sound_call {i : ℕ} {op : LockOp} {rest : op.Res → LockProgram (Option Error)} {s : State}
    (timely : ∀ t, s.now ≤ t.now → Timely t op)
    (sound : ∀ t f, s.now ≤ t.now → Sound i
      (rest (exec f op t).1) (exec f op t).2) :
    Sound i (.call op rest) s :=
  fun t f later backed allowed => ⟨exec_keeps backed (timely t later) allowed, sound t f later⟩

theorem sound_ret (i : ℕ) (result : Option Error) (s : State) :
    Sound i (.ret result) s :=
  fun t _ backed => ⟨backed, fun _ _ => le_refl t.now⟩

theorem sound_acquireLock (i : ℕ) (lockKey nodeID : String) (duration : Duration) (s : State) :
    Sound i (program (.acquire lockKey nodeID duration)) s := by
  simp only [program, acquireLock, LockProgram.timeNow, LockProgram.sql, Program.call_bind,
    Program.ret_bind]
  refine sound_call (fun _ _ => trivial) fun _ _ _ => ?_
  refine sound_call (fun _ later => later) fun _ _ _ => ?_
  refine sound_call (fun _ _ => trivial) fun _ _ _ => ?_
  split
  · exact sound_ret _ _ _
  · simp only [Program.call_bind]
    refine sound_call (fun _ _ => trivial) fun _ _ _ => ?_
    split
    · split
      · exact sound_call (fun _ _ => trivial) fun _ _ _ => sound_ret _ _ _
      · exact sound_ret _ _ _
    · exact sound_ret _ _ _

theorem sound_releaseLock (i : ℕ) (lockKey nodeID : String) (s : State) :
    Sound i (program (.release lockKey nodeID)) s :=
  sound_call (fun _ _ => trivial) fun _ _ _ => sound_ret _ _ _

theorem sound_cleanupExpiredLocks (i : ℕ) (s : State) :
    Sound i (program .cleanup) s := by
  simp only [program, cleanupExpiredLocks, LockProgram.timeNow, LockProgram.sql,
    Program.call_bind, Program.ret_bind]
  refine sound_call (fun _ _ => trivial) fun _ _ _ => ?_
  refine sound_call (fun _ later => later) fun _ _ _ => ?_
  split <;> exact sound_ret _ _ _

theorem upheld : Contract.Upheld system contract guard where
  env := by
    intro elapsed s t backed _ step
    rw [← Option.some.inj step]
    exact ⟨backed.tick elapsed, fun _ => by simp only [contract]; lia⟩
  start := by
    intro i call s p t backed _ step
    obtain ⟨rfl, rfl⟩ := Prod.mk.inj (Option.some.inj step)
    refine ⟨⟨backed, fun _ _ => le_refl s.now⟩, ?_⟩
    cases call with
    | acquire lockKey nodeID duration => exact sound_acquireLock i lockKey nodeID duration s
    | release lockKey nodeID => exact sound_releaseLock i lockKey nodeID s
    | cleanup => exact sound_cleanupExpiredLocks i s

/-- Mutual exclusion in every state of a run in which the best-effort delete
only ever meets rows that have expired. -/
theorem guarded_run_mutualExclusion {s : State} (fresh : s.grants = [])
    {turns : List (Turn ℕ ℕ Call (Option Error))}
    {q : Pool ℕ LockOp LockOp.Res (Option Error) State}
    (guarded : Guarded system.next guard.turn (idle s) turns)
    (run : runFrom system.next (idle s) turns = some q) : MutualExclusion q.shared := by
  have start : Backed s := by
    intro g hg
    rw [fresh] at hg
    cases hg
  have backed : Backed q.shared := Contract.preserved upheld start guarded run
  exact backed.mutualExclusion

def noLocks : State := ⟨0, Table.empty, []⟩

/-- Node `b` finds the lock of `a` taken, and takes it over once it has expired. -/
def takeover : List (Turn ℕ ℕ Call (Option Error)) :=
  let acquire (i : ℕ) (node : String) := Turn.start i (Call.acquire "expiry" node 10)
  let steps (i n : ℕ) := List.replicate n (Turn.step i none)
  acquire 0 "a" :: steps 0 4 ++ acquire 1 "b" :: steps 1 5 ++
    Turn.env 11 :: acquire 1 "b" :: steps 1 4

theorem takeover_mutualExclusion :
    ∃ q, runFrom system.next (idle noLocks) takeover = some q ∧
      q.shared.grants.map NodeSyncLock.nodeID = ["b", "a"] ∧ MutualExclusion q.shared := by
  have run : (runFrom system.next (idle noLocks) takeover).map
      (fun q => q.shared.grants.map NodeSyncLock.nodeID) = some ["b", "a"] := by decide
  obtain ⟨q, reached, grants⟩ := Option.map_eq_some_iff.mp run
  exact ⟨q, reached, grants, guarded_run_mutualExclusion rfl (by decide) reached⟩

/-- The lock of `x` expires. The first statement of `a` fails, so `a` sees that
row; `b` replaces it by its own, which `a` then deletes and `c` does not find. -/
def staleDelete : List (Turn ℕ ℕ Call (Option Error)) :=
  let acquire (i : ℕ) (node : String) := Turn.start i (Call.acquire "expiry" node 10)
  let steps (i n : ℕ) := List.replicate n (Turn.step i none)
  acquire 0 "x" :: steps 0 4 ++ Turn.env 20 ::
    acquire 1 "a" :: .step 1 none :: .step 1 (some (.other "i/o timeout")) :: steps 1 2 ++
    acquire 2 "b" :: steps 2 4 ++ steps 1 2 ++ acquire 3 "c" :: steps 3 4

theorem staleDelete_not_mutualExclusion :
    ∃ q, runFrom system.next (idle noLocks) staleDelete = some q ∧
      ¬ MutualExclusion q.shared := by
  have run : (runFrom system.next (idle noLocks) staleDelete).map
      (fun q => (q.shared.now, q.shared.grants)) =
        some (20, [⟨"expiry", "c", 20, 30⟩, ⟨"expiry", "b", 20, 30⟩, ⟨"expiry", "x", 0, 10⟩]) := by
    decide
  obtain ⟨q, reached, facts⟩ := Option.map_eq_some_iff.mp run
  obtain ⟨now, grants⟩ := Prod.mk.inj facts
  refine ⟨q, reached, fun exclusive => ?_⟩
  have c : Holds q.shared "expiry" "c" :=
    ⟨⟨"expiry", "c", 20, 30⟩, by simp [grants], rfl, rfl, by rw [Live, now]; decide⟩
  have b : Holds q.shared "expiry" "b" :=
    ⟨⟨"expiry", "b", 20, 30⟩, by simp [grants], rfl, rfl, by rw [Live, now]; decide⟩
  exact absurd (exclusive "expiry" "c" "b" c b) (by decide)

end WgPortal.Adapters.LockExclusion
