import Mathlib.Algebra.Ring.Int.Defs
import Mathlib.Tactic.IntervalCases
import WgPortal.Domain.Basic
import WgPortal.Library.Interleaving

/-! The delivery of peer events to the other nodes, and the endpoints that are
skipped after failed deliveries. -/

namespace WgPortal.App.Fanout

open Domain Library

structure HostRetryState where
  lastFailureTime : Time
  retryCount : ℕ
deriving DecidableEq

/-- By the whole URL of the request, with the peer and the event. -/
abbrev FailedHosts := String → Option HostRetryState

def hostCanRetry (failedHosts : FailedHosts) (now : Time) (hostURL : String) (retryCount : ℕ) :
    Bool :=
  match failedHosts hostURL with
  | none => true
  | some state =>
    if retryCount ≥ 3 then false
    else
      let backoffDuration : Duration := 2 ^ retryCount * second
      now - state.lastFailureTime ≥ backoffDuration

def markHostFailed (failedHosts : FailedHosts) (now : Time) (hostURL : String) : FailedHosts :=
  match failedHosts hostURL with
  | some state => Function.update failedHosts hostURL (some ⟨now, state.retryCount + 1⟩)
  | none => Function.update failedHosts hostURL (some ⟨now, 1⟩)

def clearHostFailed (failedHosts : FailedHosts) (hostURL : String) : FailedHosts :=
  Function.update failedHosts hostURL none

/-- The retry count that `fireForPeerEvent` reads before it asks. -/
def recordedRetryCount (failedHosts : FailedHosts) (hostURL : String) : ℕ :=
  match failedHosts hostURL with
  | some state => state.retryCount
  | none => 0

def canDeliver (failedHosts : FailedHosts) (now : Time) (hostURL : String) : Bool :=
  hostCanRetry failedHosts now hostURL (recordedRetryCount failedHosts hostURL)

inductive FanoutOp where
  | recordedRetryCount (u : String)
  | hostCanRetry (u : String) (retryCount : ℕ)
  /-- the request; answers whether it was built and sent, with a status below 300 -/
  | post (u : String)
  | markHostFailed (u : String)
  | clearHostFailed (u : String)

abbrev FanoutOp.Res : FanoutOp → Type
  | recordedRetryCount _ => ℕ
  | hostCanRetry .. => Bool
  | post _ => Bool
  | markHostFailed _ => Unit
  | clearHostFailed _ => Unit

abbrev FanoutProgram := Program FanoutOp FanoutOp.Res

def FanoutProgram.issue (op : FanoutOp) : FanoutProgram op.Res := Program.perform op

open FanoutProgram (issue)

/-- What `fireForPeerEvent` runs for one endpoint. -/
def deliver (u : String) : FanoutProgram Unit := do
  let sentryRetryCount ← issue (.recordedRetryCount u)
  let canRetry ← issue (.hostCanRetry u sentryRetryCount)
  if !canRetry then return
  let delivered ← issue (.post u)
  if !delivered then issue (.markHostFailed u)
  else issue (.clearHostFailed u)

/-- A delivery that ended, with the time of its failure. -/
structure Delivery where
  url : String
  failed : Option Time
deriving DecidableEq

def Delivery.record (failedHosts : FailedHosts) (d : Delivery) : FailedHosts :=
  match d.failed with
  | some now => markHostFailed failedHosts now d.url
  | none => clearHostFailed failedHosts d.url

/-- The failed hosts after a history of deliveries. -/
def recorded (history : List Delivery) : FailedHosts :=
  history.foldl Delivery.record fun _ => none

/-- The times at which deliveries to the endpoint failed since the last success. -/
def failuresSinceSuccess (u : String) : List Delivery → List Time :=
  List.foldl (fun failures d =>
    if d.url = u then d.failed.elim [] fun now => failures ++ [now] else failures) []

/-- What is kept about an endpoint that failed. -/
def retryState (failures : List Time) : Option HostRetryState :=
  failures.getLast?.map fun last => ⟨last, failures.length⟩

theorem retryState_nil : retryState [] = none := rfl

theorem retryState_append (failures : List Time) (now : Time) :
    retryState (failures ++ [now]) = some ⟨now, failures.length + 1⟩ := by
  simp only [retryState, List.getLast?_append, List.getLast?_singleton, Option.some_or,
    Option.map_some, List.length_append, List.length_singleton]

theorem record_of_ne {u : String} {d : Delivery} (other : d.url ≠ u) (failedHosts : FailedHosts) :
    d.record failedHosts u = failedHosts u := by
  unfold Delivery.record markHostFailed clearHostFailed
  cases d.failed with
  | none => exact Function.update_of_ne other.symm ..
  | some now => cases failedHosts d.url <;> exact Function.update_of_ne other.symm ..

theorem record_self {failures : List Time} {d : Delivery} {failedHosts : FailedHosts}
    (before : failedHosts d.url = retryState failures) :
    d.record failedHosts d.url = retryState (d.failed.elim [] fun now => failures ++ [now]) := by
  unfold Delivery.record
  cases d.failed with
  | none => exact Function.update_self ..
  | some now =>
    simp only [markHostFailed, Option.elim_some, retryState_append]
    cases same : failures.getLast? with
    | none =>
      have none : failures = [] := List.getLast?_eq_none_iff.mp same
      simp only [before, none, retryState_nil, Function.update_self, List.length_nil]
    | some last =>
      have kept : retryState failures = some ⟨last, failures.length⟩ := by
        simp only [retryState, same, Option.map_some]
      simp only [before, kept, Function.update_self]

/-- The record of an endpoint is the last failure and the number of failures. -/
theorem recorded_eq (history : List Delivery) (u : String) :
    recorded history u = retryState (failuresSinceSuccess u history) := by
  induction history using List.reverseRecOn with
  | nil => rfl
  | append_singleton history d ih =>
    simp only [recorded, failuresSinceSuccess, List.foldl_append, List.foldl_cons,
      List.foldl_nil] at ih ⊢
    by_cases same : d.url = u
    · subst same
      rw [if_pos rfl]
      exact record_self ih
    · rw [if_neg same, record_of_ne same]
      exact ih

/-- Once eight seconds have passed since the last failure of an endpoint, it is tried again if
and only if fewer than three deliveries have failed since the last success. -/
theorem canDeliver_iff (history : List Delivery) (u : String) (now : Time)
    (rested : ∀ last, (failuresSinceSuccess u history).getLast? = some last →
      last + 8 * second ≤ now) :
    canDeliver (recorded history) now u = true ↔
      (failuresSinceSuccess u history).length < 3 := by
  have here := recorded_eq history u
  unfold canDeliver hostCanRetry recordedRetryCount
  cases last : (failuresSinceSuccess u history).getLast? with
  | none =>
    have none : failuresSinceSuccess u history = [] := List.getLast?_eq_none_iff.mp last
    simp only [here, none, retryState_nil, List.length_nil]
    decide
  | some failure =>
    have passed := rested failure last
    simp only [here, retryState, last, Option.map_some]
    generalize (failuresSinceSuccess u history).length = count
    by_cases few : count < 3
    · have backoff : (2 : Int) ^ count ≤ 8 := by interval_cases count <;> decide
      have waited : 2 ^ count * second ≤ now - failure :=
        calc (2 : Int) ^ count * second ≤ 8 * second :=
              Int.mul_le_mul_of_nonneg_right backoff (by decide)
          _ ≤ now - failure := Int.le_sub_left_of_add_le passed
      rw [if_neg (not_le.mpr few)]
      exact iff_of_true (decide_eq_true waited) few
    · rw [if_pos (not_lt.mp few)]
      exact iff_of_false Bool.false_ne_true few

/-- One failed delivery is followed by another one. -/
theorem oneFailure_canDeliver :
    canDeliver (recorded [⟨"http://node-b", some 0⟩]) (8 * second) "http://node-b" = true :=
  (canDeliver_iff [⟨"http://node-b", some 0⟩] "http://node-b" (8 * second)
    (fun _ failed => Option.some.inj failed ▸ le_refl _)).mpr (by decide)

/-- The shared state of all deliveries, with what happened so far. -/
structure State where
  now : Time
  failedHosts : FailedHosts
  history : List Delivery
  /-- the URLs of the requests -/
  posted : List String

def State.mark (s : State) (d : Delivery) : State :=
  { s with failedHosts := d.record s.failedHosts, history := s.history ++ [d] }

/-- `delivered` is how a request ends. -/
def exec (op : FanoutOp) (delivered : Bool) (s : State) : op.Res × State :=
  match op with
  | .recordedRetryCount u => (recordedRetryCount s.failedHosts u, s)
  | .hostCanRetry u retryCount => (hostCanRetry s.failedHosts s.now u retryCount, s)
  | .post u => (delivered, { s with posted := s.posted ++ [u] })
  | .markHostFailed u => ((), s.mark ⟨u, some s.now⟩)
  | .clearHostFailed u => ((), s.mark ⟨u, none⟩)

/-- Deliveries start at any time for any endpoint; the environment sets the clock. -/
def system (ι : Type) : System ι Time String FanoutOp FanoutOp.Res Bool Unit State where
  exec _ := exec
  env now s := some { s with now := now }
  start _ u s := some (deliver u, s)
  finish _ _ s := s

section Runs

variable {ι : Type} [DecidableEq ι]

/-- In every run the failed hosts are those of the deliveries that ended. -/
theorem run_recorded {s : State} (start : s.failedHosts = recorded s.history)
    {turns : List (Turn ι Time String Bool)}
    {q : Pool ι FanoutOp FanoutOp.Res Unit State}
    (run : runFrom (system ι).next (System.idle s) turns = some q) :
    q.shared.failedHosts = recorded q.shared.history := by
  have step : ∀ op delivered (t : State), t.failedHosts = recorded t.history →
      (exec op delivered t).2.failedHosts = recorded (exec op delivered t).2.history := by
    intro op delivered t same
    cases op with
    | markHostFailed u | clearHostFailed u =>
      simp only [exec, State.mark, recorded, List.foldl_append, List.foldl_cons, List.foldl_nil]
      rw [same, recorded]
    | _ => exact same
  let Kept (p : Pool ι FanoutOp FanoutOp.Res Unit State) : Prop :=
    p.shared.failedHosts = recorded p.shared.history
  suffices keeps : ∀ p turn q, Kept p → True → (system ι).next p turn = some q → Kept q from
    run_invariant keeps (guarded_of_all (fun _ _ => trivial) _ turns) run start
  intro p turn q same _ taken
  cases turn with
  | env now =>
    obtain rfl := Option.some.inj taken
    exact same
  | start i u =>
    simp only [System.next] at taken
    split at taken
    · cases taken
    · obtain rfl := Option.some.inj taken
      exact same
  | step i delivered =>
    simp only [System.next] at taken
    split at taken
    · cases taken
    · obtain rfl := Option.some.inj taken
      exact same
    · obtain rfl := Option.some.inj taken
      exact step _ delivered _ same

/-- Nothing is sent to the endpoint any more, and its record stays. -/
def excluded (ι : Type) (u : String) (s : State) : System.Contract ι State where
  inv t := t.failedHosts u = s.failedHosts u ∧ t.posted.count u = s.posted.count u
  rely _ t v := v.failedHosts u = t.failedHosts u ∧ v.posted.count u = t.posted.count u
  refl _ _ := ⟨rfl, rfl⟩
  trans _ _ _ _ first second := ⟨second.1.trans first.1, second.2.trans first.2⟩

def unguarded (ι : Type) : System.Guard ι Time String FanoutOp Bool State where
  env _ _ := True
  start _ _ _ := True
  step _ _ _ _ := True

variable {u : String} {s t v : State} {i : ι}

omit [DecidableEq ι] in
theorem keeps_excluded (inv : (excluded ι u s).inv t) (record : v.failedHosts u = t.failedHosts u)
    (sent : v.posted.count u = t.posted.count u) : (excluded ι u s).Keeps i t v :=
  ⟨⟨record.trans inv.1, sent.trans inv.2⟩, fun _ _ => ⟨record, sent⟩⟩

omit [DecidableEq ι] in
theorem keeps_mark {other : String} (ne : other ≠ u) (failed : Option Time)
    (inv : (excluded ι u s).inv t) : (excluded ι u s).Keeps i t (t.mark ⟨other, failed⟩) :=
  keeps_excluded inv (record_of_ne ne t.failedHosts) rfl

omit [DecidableEq ι] in
theorem sound_ret : (excluded ι u s).Sound (system ι) (unguarded ι) i
    ((excluded ι u s).Finishes (system ι) i) (.ret ()) t :=
  fun _ _ inv => keeps_excluded inv rfl rfl

omit [DecidableEq ι] in
/-- A delivery to an endpoint with three failures ends at the gate. -/
theorem sound_deliver {state : HostRetryState} (record : s.failedHosts u = some state)
    (many : 3 ≤ state.retryCount) (other : String) :
    (excluded ι u s).Sound (system ι) (unguarded ι) i ((excluded ι u s).Finishes (system ι) i)
      (deliver other) t := by
  intro read _ _ inv _
  refine ⟨keeps_excluded inv rfl rfl, ?_⟩
  intro asked _ later inv' _
  refine ⟨keeps_excluded inv' rfl rfl, ?_⟩
  by_cases same : other = u
  · subst same
    have count : recordedRetryCount read.failedHosts other = state.retryCount := by
      rw [recordedRetryCount, inv.1, record]
    have closed : hostCanRetry asked.failedHosts asked.now other
        (recordedRetryCount read.failedHosts other) = false := by
      rw [hostCanRetry, inv'.1, record, count]
      exact if_pos many
    show (excluded ι other s).Sound _ _ i _ (if !hostCanRetry asked.failedHosts asked.now other
      (recordedRetryCount read.failedHosts other) then _ else _) _
    rw [closed]
    exact sound_ret
  · show (excluded ι u s).Sound _ _ i _ (if !hostCanRetry asked.failedHosts asked.now other
      (recordedRetryCount read.failedHosts other) then _ else _) _
    split
    · exact sound_ret
    · intro sending delivered _ inv'' _
      have sent : (sending.posted ++ [other]).count u = sending.posted.count u := by
        rw [List.count_append, List.count_singleton, if_neg (by simpa using same), add_zero]
      refine ⟨keeps_excluded inv'' rfl sent, ?_⟩
      show (excluded ι u s).Sound _ _ i _ (if !delivered then _ else _) _
      split
      · exact fun _ _ _ inv _ => ⟨keeps_mark same _ inv, sound_ret⟩
      · exact fun _ _ _ inv _ => ⟨keeps_mark same _ inv, sound_ret⟩

/-- Once three deliveries have failed and none is under way, nothing is ever sent to the
endpoint again. -/
theorem excluded_forever {state : HostRetryState} (record : s.failedHosts u = some state)
    (many : 3 ≤ state.retryCount) {turns : List (Turn ι Time String Bool)}
    {q : Pool ι FanoutOp FanoutOp.Res Unit State}
    (run : runFrom (system ι).next (System.idle s) turns = some q) :
    q.shared.failedHosts u = some state ∧ q.shared.posted.count u = s.posted.count u := by
  have upheld : System.Contract.Upheld (system ι) (excluded ι u s) (unguarded ι) := by
    constructor
    · intro now t v inv _ set
      obtain rfl := Option.some.inj set
      exact ⟨inv, fun _ => ⟨rfl, rfl⟩⟩
    · intro i other t prog v inv _ started
      obtain ⟨rfl, rfl⟩ := Prod.mk.inj (Option.some.inj started)
      exact ⟨keeps_excluded inv rfl rfl, sound_deliver record many other⟩
  have guarded : Guarded (system ι).next (unguarded ι).turn (System.idle s) turns := by
    refine guarded_of_all (fun p turn => ?_) _ turns
    cases turn with
    | step i delivered => exact fun _ _ _ => trivial
    | env | start => trivial
  have kept := System.Contract.preserved upheld ⟨rfl, rfl⟩ guarded run
  exact ⟨kept.1.trans record, kept.2⟩

end Runs

/-- One delivery that passes the gate and fails, at this time -/
def failedAt (now : Time) : List (Turn Unit Time String Bool) :=
  [.env now, .start () "http://node-b", .step () true, .step () true, .step () false,
    .step () false, .step () false]

/-- The node fails at its first delivery and at the two retries that the delays allow. A day
later it is back, and not tried. -/
theorem threeFailures_excluded :
    (runFrom (system Unit).next (System.idle ⟨0, recorded [], [], []⟩)
      (failedAt 0 ++ failedAt (2 * second) ++ failedAt (6 * second) ++ [.env (24 * hour)])).map
        (fun q => (q.shared.history, q.shared.now,
          canDeliver q.shared.failedHosts q.shared.now "http://node-b")) =
      some ([⟨"http://node-b", some 0⟩, ⟨"http://node-b", some (2 * second)⟩,
        ⟨"http://node-b", some (6 * second)⟩], 24 * hour, false) := by
  decide +kernel

end WgPortal.App.Fanout
