import Mathlib.Data.List.Basic

/-! One character of a text for another, the first time it occurs or every time. -/

namespace WgPortal.Library.Replacement

variable {α : Type} [DecidableEq α] {a b c : α} {text : List α}

def replaceFirst (a b : α) : List α → List α
  | [] => []
  | c :: text => if c = a then b :: text else c :: replaceFirst a b text

def replaceAll (a b : α) (text : List α) : List α := text.map fun c => if c = a then b else c

theorem replaceAll_of_not_mem (none : a ∉ text) : replaceAll a b text = text := by
  refine (List.map_congr_left fun c mem => ?_).trans (List.map_id text)
  have other : c ≠ a := by
    rintro rfl
    exact none mem
  exact if_neg other

theorem mem_replaceFirst (mem : c ∈ replaceFirst a b text) : c = b ∨ c ∈ text := by
  induction text with
  | nil => exact .inr mem
  | cons d text ih =>
    unfold replaceFirst at mem
    split at mem
    · exact (List.mem_cons.mp mem).imp_right (List.mem_cons_of_mem d)
    · rcases List.mem_cons.mp mem with rfl | later
      · exact .inr List.mem_cons_self
      · exact (ih later).imp_right (List.mem_cons_of_mem d)

theorem not_mem_replaceFirst (other : c ≠ b) (none : c ∉ text) : c ∉ replaceFirst a b text :=
  fun mem => (mem_replaceFirst mem).elim other none

/-- A character that the text does not have is turned back. -/
theorem replaceAll_replaceFirst (fresh : b ∉ text) :
    replaceAll b a (replaceFirst a b text) = text := by
  induction text with
  | nil => rfl
  | cons d text ih =>
    rw [List.mem_cons, not_or] at fresh
    have kept : (if d = b then a else d) = d := if_neg fun same => fresh.1 same.symm
    unfold replaceFirst
    split
    · rename_i same
      rw [replaceAll, List.map_cons, if_pos rfl, ← replaceAll, replaceAll_of_not_mem fresh.2, same]
    · rw [replaceAll, List.map_cons, kept, ← replaceAll, ih fresh.2]

theorem count_replaceFirst (other : b ≠ a) (text : List α) :
    (replaceFirst a b text).count a = text.count a - 1 := by
  induction text with
  | nil => rfl
  | cons d text ih =>
    unfold replaceFirst
    split
    · rename_i same
      rw [same, List.count_cons_of_ne other, List.count_cons_self, Nat.add_sub_cancel]
    · rename_i different
      rw [List.count_cons_of_ne different, List.count_cons_of_ne different, ih]

/-- The others are as many as before. -/
theorem count_replaceFirst_of_ne (old : c ≠ a) (new : c ≠ b) (text : List α) :
    (replaceFirst a b text).count c = text.count c := by
  induction text with
  | nil => rfl
  | cons d text ih =>
    unfold replaceFirst
    split
    · rename_i same
      rw [same, List.count_cons_of_ne new.symm, List.count_cons_of_ne old.symm]
    · rw [List.count_cons, List.count_cons, ih]

end WgPortal.Library.Replacement
