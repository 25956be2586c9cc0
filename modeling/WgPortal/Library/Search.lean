import Mathlib.Data.List.Nodup
import Mathlib.Data.List.Perm.Subperm
import Mathlib.Data.Nat.Find
import Mathlib.Logic.Function.Iterate

/-! Loops that go on to the next value as long as the one they are at is taken. -/

namespace WgPortal.Library

variable {α β : Type}

/-- The value at which the loop ends, if it does so within these steps. -/
def search (next : α → α) (taken : α → Bool) : ℕ → α → Option α
  | 0, _ => none
  | steps + 1, v => if taken v then search next taken steps (next v) else some v

/-- The first value in the order of the loop that is not taken -/
def FirstFree (next : α → α) (taken : α → Bool) (start v : α) : Prop :=
  ∃ n, v = next^[n] start ∧ taken v = false ∧ ∀ k < n, taken (next^[k] start) = true

variable {next : α → α} {taken : α → Bool}

theorem search_eq_some {steps : ℕ} {start v : α} : search next taken steps start = some v ↔
    ∃ n < steps, v = next^[n] start ∧ taken v = false ∧
      ∀ k < n, taken (next^[k] start) = true := by
  induction steps generalizing start with
  | zero => simp [search]
  | succ steps ih =>
    rw [search]
    by_cases here : taken start = true
    · rw [if_pos here, ih]
      constructor
      · rintro ⟨n, lt, rfl, free, before⟩
        refine ⟨n + 1, by omega, rfl, free, fun k less => ?_⟩
        cases k with
        | zero => exact here
        | succ k => exact before k (by omega)
      · rintro ⟨n, lt, rfl, free, before⟩
        cases n with
        | zero => exact absurd (here.symm.trans free) (by decide)
        | succ n => exact ⟨n, by omega, rfl, free, fun k less => before (k + 1) (by omega)⟩
    · rw [if_neg here]
      constructor
      · rintro same
        obtain rfl := Option.some.inj same
        exact ⟨0, by omega, rfl, by simpa using here, fun k less => absurd less (by omega)⟩
      · rintro ⟨n, _, rfl, _, before⟩
        cases n with
        | zero => rfl
        | succ n => exact absurd (before 0 (by omega)) here

theorem FirstFree.of_search {steps : ℕ} {start v : α}
    (found : search next taken steps start = some v) : FirstFree next taken start v := by
  obtain ⟨n, _, same, free, before⟩ := search_eq_some.mp found
  exact ⟨n, same, free, before⟩

/-- There is only one such value, so that more steps do not change what the loop ends with. -/
theorem FirstFree.unique {start v w : α} (first : FirstFree next taken start v)
    (other : FirstFree next taken start w) : v = w := by
  obtain ⟨n, rfl, freeV, beforeV⟩ := first
  obtain ⟨m, rfl, freeW, beforeW⟩ := other
  rcases Nat.lt_trichotomy n m with less | rfl | more
  · exact absurd ((beforeW n less).symm.trans freeV) (by decide)
  · rfl
  · exact absurd ((beforeV m more).symm.trans freeW) (by decide)

/-- Of more different values than there are used ones, one is fresh, and there is a first such. -/
theorem exists_first_fresh [DecidableEq β] (value : ℕ → β) (used : List β)
    (distinct : ∀ i j, i < j → j ≤ used.length → value i ≠ value j) :
    ∃ n ≤ used.length, value n ∉ used ∧ ∀ k < n, value k ∈ used := by
  have fresh : ∃ n, n ≤ used.length ∧ value n ∉ used := by
    by_contra none
    push Not at none
    have nodup : ((List.range (used.length + 1)).map value).Nodup := by
      refine List.Nodup.map_on (fun i hi j hj same => ?_) List.nodup_range
      rw [List.mem_range] at hi hj
      rcases Nat.lt_trichotomy i j with less | eq | more
      · exact absurd same (distinct i j less (by omega))
      · exact eq
      · exact absurd same.symm (distinct j i more (by omega))
    have all : (List.range (used.length + 1)).map value ⊆ used := by
      intro v listed
      obtain ⟨n, below, rfl⟩ := List.mem_map.mp listed
      exact none n (by simpa [Nat.lt_succ_iff] using below)
    have long := (List.subperm_of_subset nodup all).length_le
    rw [List.length_map, List.length_range] at long
    omega
  obtain ⟨bound, free⟩ := Nat.find_spec fresh
  refine ⟨Nat.find fresh, bound, free, fun k less => ?_⟩
  by_contra missing
  exact Nat.find_min fresh less ⟨by omega, missing⟩

/-- The loop ends if it passes more different values than there are used ones. -/
theorem exists_search [DecidableEq β] (start : α) (key : α → β) (used : List β)
    (same : ∀ v, taken v = decide (key v ∈ used))
    (distinct : ∀ i j, i < j → j ≤ used.length → key (next^[i] start) ≠ key (next^[j] start)) :
    ∃ n ≤ used.length, search next taken (used.length + 1) start = some (next^[n] start) ∧
      taken (next^[n] start) = false ∧ ∀ k < n, taken (next^[k] start) = true := by
  obtain ⟨n, bound, free, before⟩ :=
    exists_first_fresh (fun k => key (next^[k] start)) used distinct
  have notTaken : taken (next^[n] start) = false := by
    rw [same]
    exact decide_eq_false free
  have passed : ∀ k < n, taken (next^[k] start) = true := by
    intro k less
    rw [same]
    exact decide_eq_true (before k less)
  exact ⟨n, bound, search_eq_some.mpr ⟨n, by omega, rfl, notTaken, passed⟩, notTaken, passed⟩

end WgPortal.Library
