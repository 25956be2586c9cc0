import Mathlib.Data.List.Basic
import Mathlib.Data.Nat.Notation
import Mathlib.Logic.Function.Basic
import WgPortal.Library.Transition

/-! The debouncer of the fan-out: `Bump` arms a timer, whose callback puts a token into a
channel with one slot and then forgets the timer. A timer that `Bump` arms again while its
callback runs stays armed after it is forgotten. -/

namespace WgPortal.App

open Library

/-- What a call of `Bump` does next with the timer, with the mutex locked. -/
inductive Bumping where
  /-- the timer could not be stopped, the channel is to be drained -/
  | drain (i : ℕ)
  | rearm (i : ℕ)
deriving DecidableEq

structure Debouncer where
  /-- the timers that will expire -/
  armed : ℕ → Bool
  /-- the number of timers so far -/
  created : ℕ
  /-- the field `t` -/
  timer : Option ℕ
  bumping : Option Bumping
  /-- the callbacks that were started and did not send yet -/
  unsent : ℕ
  /-- the callbacks that still have to reset the field -/
  unreset : ℕ
  /-- whether the channel is full -/
  token : Bool

def newDebouncer : Debouncer := ⟨fun _ => false, 0, none, none, 0, 0, false⟩

inductive DebounceStep where
  /-- a call of `Bump`, up to the outcome of `Stop` if there is a timer -/
  | bump
  | drain
  | rearm
  | expire (i : ℕ)
  | send
  | reset
  /-- the loop of the fan-out takes the token -/
  | receive
deriving DecidableEq

namespace Debouncer

/-- The mutex is locked in the steps of `Bump` and for the reset of the field. -/
def next (d : Debouncer) : DebounceStep → Option Debouncer
  | .bump =>
    match d.bumping, d.timer with
    | some _, _ => none
    | none, none => some { d with
        armed := Function.update d.armed d.created true
        created := d.created + 1
        timer := some d.created }
    | none, some i =>
      if d.armed i then
        some { d with armed := Function.update d.armed i false, bumping := some (.rearm i) }
      else some { d with bumping := some (.drain i) }
  | .drain =>
    match d.bumping with
    | some (.drain i) => some { d with token := false, bumping := some (.rearm i) }
    | _ => none
  | .rearm =>
    match d.bumping with
    | some (.rearm i) => some { d with armed := Function.update d.armed i true, bumping := none }
    | _ => none
  | .expire i =>
    if d.armed i then
      some { d with armed := Function.update d.armed i false, unsent := d.unsent + 1 }
    else none
  | .send =>
    match d.unsent with
    | 0 => none
    | n + 1 => some { d with unsent := n, unreset := d.unreset + 1, token := true }
  | .reset =>
    match d.bumping, d.unreset with
    | none, n + 1 => some { d with timer := none, unreset := n }
    | _, _ => none
  | .receive => if d.token then some { d with token := false } else none

/-- A token is in the channel, or will be. -/
def Pending (d : Debouncer) : Prop := (∃ i, d.armed i = true) ∨ 0 < d.unsent ∨ d.token = true

/-- What a call of `Bump` leaves is pending, or the call is still to arm its timer. -/
def Kept (d : Debouncer) : Prop := d.bumping = none → d.Pending

theorem kept_bump {d d' : Debouncer} (taken : d.next .bump = some d') : d'.Kept := by
  unfold next at taken
  cases busy : d.bumping with
  | some stage => simp only [busy, reduceCtorEq] at taken
  | none =>
    cases timer : d.timer with
    | none =>
      simp only [busy, timer] at taken
      obtain rfl := Option.some.inj taken
      exact fun _ => .inl ⟨d.created, Function.update_self ..⟩
    | some i =>
      simp only [busy, timer] at taken
      split at taken
      all_goals
        obtain rfl := Option.some.inj taken
        exact fun idle => by cases idle

/-- Only the loop takes away what is pending; `Bump` drains the channel before it arms. -/
theorem kept_next {d d' : Debouncer} {step : DebounceStep} (kept : d.Kept)
    (other : step ≠ .receive) (taken : d.next step = some d') : d'.Kept := by
  cases step with
  | bump => exact kept_bump taken
  | receive => exact absurd rfl other
  | drain =>
    simp only [next] at taken
    split at taken
    · obtain rfl := Option.some.inj taken
      exact fun idle => by cases idle
    · cases taken
  | rearm =>
    simp only [next] at taken
    split at taken
    · obtain rfl := Option.some.inj taken
      exact fun _ => .inl ⟨_, Function.update_self ..⟩
    · cases taken
  | expire i =>
    simp only [next] at taken
    split at taken
    · obtain rfl := Option.some.inj taken
      exact fun _ => .inr (.inl (Nat.succ_pos _))
    · cases taken
  | send =>
    simp only [next] at taken
    split at taken
    · cases taken
    · obtain rfl := Option.some.inj taken
      exact fun _ => .inr (.inr rfl)
  | reset =>
    simp only [next] at taken
    split at taken
    · obtain rfl := Option.some.inj taken
      exact fun _ => kept ‹_›
    · cases taken

/-- In whatever order calls of `Bump`, timers, callbacks and the loop take their steps: after a
call of `Bump` there is a token to come until the loop takes one, at every point where no call
of `Bump` is between its steps. -/
theorem run_pending {before after : List DebounceStep} {d : Debouncer}
    (run : runFrom next newDebouncer (before ++ .bump :: after) = some d)
    (unreceived : .receive ∉ after) (idle : d.bumping = none) : d.Pending := by
  rw [runFrom_append] at run
  obtain ⟨d₁, _, rest⟩ := Option.bind_eq_some_iff.mp run
  obtain ⟨d₂, bumped, rest⟩ := runFrom_cons rest
  have others : ∀ step ∈ after, ∀ _ : Debouncer, step ≠ .receive :=
    fun step among _ same => unreceived (same ▸ among)
  have guarded : Guarded next (fun _ step => step ≠ .receive) d₂ after := guarded_of_mem others d₂
  have keeps : ∀ d step d', Kept d → step ≠ .receive → d.next step = some d' → d'.Kept :=
    fun _ _ _ kept other taken => kept_next kept other taken
  exact run_invariant keeps guarded rest (kept_bump bumped) idle

/-- The timer expires and is armed again by a second call before its callback sends; the
callback then forgets a timer that is armed. -/
def overtaken : List DebounceStep := [.bump, .expire 0, .bump, .drain, .rearm, .send, .reset]

theorem overtaken_pending :
    ∃ d, runFrom next newDebouncer overtaken = some d ∧ d.timer = none ∧ d.Pending := by
  obtain ⟨d, run, timer, idle⟩ : ∃ d, runFrom next newDebouncer overtaken = some d ∧
      d.timer = none ∧ d.bumping = none := ⟨_, rfl, rfl, rfl⟩
  have unreceived : DebounceStep.receive ∉ [DebounceStep.drain, .rearm, .send, .reset] := by decide
  exact ⟨d, run, timer,
    @run_pending [.bump, .expire 0] _ d run unreceived idle⟩

end Debouncer

end WgPortal.App
