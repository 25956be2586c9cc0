import Mathlib.Data.List.Nodup
import Mathlib.Data.Option.Defs

/-! Keyed tables: finitely many rows, at most one for each key. A table is
determined by its lookups up to the order of its rows, so the lemmas below
describe every operation by what a lookup finds afterwards. -/

namespace WgPortal.Library

variable {κ ν : Type}

structure Table (key : ν → κ) where
  rows : List ν
  nodup : (rows.map key).Nodup

namespace Table

variable {key : ν → κ}

private theorem nodup_append {rows : List ν} {row : ν}
    (h : (rows.map key).Nodup) (fresh : ∀ r ∈ rows, key r ≠ key row) :
    ((rows ++ [row]).map key).Nodup := by
  rw [List.map_append, List.nodup_append]
  refine ⟨h, List.nodup_singleton _, ?_⟩
  intro a ha b hb
  obtain ⟨r, hr, rfl⟩ := List.mem_map.mp ha
  rw [List.map_singleton, List.mem_singleton] at hb
  exact hb ▸ fresh r hr

def empty : Table key := ⟨[], List.nodup_nil⟩

/-- The rows that satisfy `p`; a `DELETE` keeps those that do not match. -/
def filter (t : Table key) (p : ν → Bool) : Table key :=
  ⟨t.rows.filter p, t.nodup.sublist (List.filter_sublist.map key)⟩

@[ext] theorem ext {t u : Table key} (rows : t.rows = u.rows) : t = u := by
  cases t
  cases u
  simp only at rows
  subst rows
  rfl

theorem filter_congr {t : Table key} {p q : ν → Bool} (same : ∀ row ∈ t.rows, p row = q row) :
    t.filter p = t.filter q := Table.ext (List.filter_congr same)

theorem filter_eq_self {t : Table key} {p : ν → Bool} (all : ∀ row ∈ t.rows, p row = true) :
    t.filter p = t := Table.ext (List.filter_eq_self.mpr all)

theorem filter_filter (t : Table key) (p q : ν → Bool) :
    (t.filter p).filter q = t.filter fun row => p row && q row := by
  refine Table.ext ((List.filter_filter ..).trans ?_)
  simp only [filter, Bool.and_comm]

/-- Change the rows, but not their keys. -/
def map (t : Table key) (f : ν → ν) (same : ∀ row, key (f row) = key row) : Table key :=
  ⟨t.rows.map f, by
    rw [List.map_map, show key ∘ f = key from funext same]
    exact t.nodup⟩

variable [DecidableEq κ]

def find (t : Table key) (k : κ) : Option ν := t.rows.find? (key · = k)

/-- Insert a row, unless a row with its key exists. -/
def insert (t : Table key) (row : ν) : Option (Table key) :=
  if h : ∀ r ∈ t.rows, key r ≠ key row then
    some ⟨t.rows ++ [row], nodup_append t.nodup h⟩
  else none

/-- Store a row in place of the one with the same key, if there is one. -/
def upsert (t : Table key) (row : ν) : Table key :=
  let others := t.filter fun r => key r ≠ key row
  ⟨others.rows ++ [row], nodup_append others.nodup fun r hr => by
    simpa using (List.mem_filter.mp hr).2⟩

def upsertAll (t : Table key) (rows : List ν) : Table key := rows.foldl upsert t

/-- Insert rows one by one, and skip those whose key exists already. -/
def insertNew (t : Table key) (rows : List ν) : Table key :=
  rows.foldl (fun t row => (t.insert row).getD t) t

@[simp] theorem find_empty (k : κ) : (empty : Table key).find k = none := rfl

theorem key_of_find {t : Table key} {k : κ} {row : ν} (h : t.find k = some row) :
    key row = k := by
  simpa using List.find?_some h

theorem mem_of_find {t : Table key} {k : κ} {row : ν} (h : t.find k = some row) :
    row ∈ t.rows := List.mem_of_find?_eq_some h

theorem find_eq_none {t : Table key} {k : κ} :
    t.find k = none ↔ ∀ row ∈ t.rows, key row ≠ k := by
  simp [find, List.find?_eq_none]

theorem find_of_mem {t : Table key} {row : ν} (h : row ∈ t.rows) :
    t.find (key row) = some row := by
  cases found : t.find (key row) with
  | none => exact absurd rfl (find_eq_none.mp found row h)
  | some other =>
    have same := List.inj_on_of_nodup_map t.nodup (mem_of_find found) h (key_of_find found)
    rw [same]

theorem find_eq_some {t : Table key} {k : κ} {row : ν} :
    t.find k = some row ↔ row ∈ t.rows ∧ key row = k := by
  constructor
  · exact fun h => ⟨mem_of_find h, key_of_find h⟩
  · rintro ⟨h, rfl⟩
    exact find_of_mem h

/-- The row of a key is the only one. -/
theorem rows_filter_of_find {t : Table key} {k : κ} {row : ν} (found : t.find k = some row) :
    t.rows.filter (key · = k) = [row] := by
  have nodup : (t.rows.filter (key · = k)).Nodup := t.nodup.of_map.filter _
  refine List.perm_singleton.mp ((List.perm_ext_iff_of_nodup nodup (List.nodup_singleton row)).mpr ?_)
  intro other
  rw [List.mem_filter, List.mem_singleton, decide_eq_true_eq, ← find_eq_some, found,
    Option.some.injEq, eq_comm]

theorem find_filter (t : Table key) (p : ν → Bool) (k : κ) :
    (t.filter p).find k = (t.find k).filter p := by
  apply Option.ext
  intro row
  rw [find_eq_some, Option.filter_eq_some_iff, find_eq_some]
  simp only [filter, List.mem_filter]
  tauto

theorem find_filter_self (t : Table key) (k : κ) : (t.filter (key · ≠ k)).find k = none := by
  rw [find_filter]
  cases found : t.find k with
  | none => rfl
  | some row => simp [Option.filter, key_of_find found]

theorem find_filter_of_ne (t : Table key) {k k' : κ} (ne : k' ≠ k) :
    (t.filter (key · ≠ k)).find k' = t.find k' := by
  rw [find_filter]
  cases found : t.find k' with
  | none => rfl
  | some row => simp [Option.filter, key_of_find found, ne]

theorem find_map (t : Table key) (f : ν → ν) (same : ∀ row, key (f row) = key row) (k : κ) :
    (t.map f same).find k = (t.find k).map f := by
  have keys : ((key · = k : ν → Bool) ∘ f) = (key · = k) := by
    funext row
    simp only [Function.comp_apply, same]
  simp only [find, map, List.find?_map, keys]

private theorem find_append_fresh {rows : List ν} {row : ν} (k : κ)
    (fresh : ∀ r ∈ rows, key r ≠ key row) :
    (rows ++ [row]).find? (key · = k) =
      if key row = k then some row else rows.find? (key · = k) := by
  rw [List.find?_append]
  by_cases hk : key row = k
  · have none : rows.find? (key · = k) = none := by
      simpa [List.find?_eq_none, ← hk] using fresh
    simp [none, hk]
  · simp [hk]

theorem find_insert {t t' : Table key} {row : ν} (h : t.insert row = some t') (k : κ) :
    t'.find k = if key row = k then some row else t.find k := by
  unfold insert at h
  split at h
  · rename_i fresh
    rw [← Option.some.inj h]
    exact find_append_fresh k fresh
  · cases h

theorem insert_fresh {t t' : Table key} {row : ν} (h : t.insert row = some t') :
    t.find (key row) = none := by
  unfold insert at h
  split at h
  · rename_i fresh
    exact find_eq_none.mpr fresh
  · cases h

theorem find_upsert (t : Table key) (row : ν) (k : κ) :
    (t.upsert row).find k = if key row = k then some row else t.find k := by
  have fresh : ∀ r ∈ (t.filter fun r => key r ≠ key row).rows, key r ≠ key row := by
    intro r hr
    simpa using (List.mem_filter.mp hr).2
  refine (find_append_fresh k fresh).trans ?_
  split
  · rfl
  · rename_i hk
    refine (find_filter t _ k).trans ?_
    cases found : t.find k with
    | none => rfl
    | some r =>
      have other : key r ≠ key row := by
        rw [key_of_find found]
        exact Ne.symm hk
      simp [other]

theorem rows_insert_fresh {t : Table key} {row : ν} (fresh : ∀ r ∈ t.rows, key r ≠ key row) :
    ((t.insert row).getD t).rows = t.rows ++ [row] := by
  rw [insert, dif_pos fresh, Option.getD_some]

/-- New rows are appended. -/
theorem rows_insertNew {t : Table key} {rows : List ν} (nodup : (rows.map key).Nodup)
    (fresh : ∀ r ∈ t.rows, ∀ row ∈ rows, key r ≠ key row) :
    (t.insertNew rows).rows = t.rows ++ rows := by
  induction rows generalizing t with
  | nil => simp [insertNew]
  | cons row rows ih =>
    rw [List.map_cons, List.nodup_cons] at nodup
    have inserted := rows_insert_fresh fun r hr => fresh r hr row List.mem_cons_self
    have later : ∀ r ∈ ((t.insert row).getD t).rows, ∀ other ∈ rows, key r ≠ key other := by
      intro r hr other hother
      rw [inserted, List.mem_append, List.mem_singleton] at hr
      rcases hr with hr | rfl
      · exact fresh r hr other (List.mem_cons_of_mem _ hother)
      · intro same
        exact nodup.1 (same ▸ List.mem_map_of_mem hother)
    calc (t.insertNew (row :: rows)).rows
        = ((t.insert row).getD t).rows ++ rows := ih nodup.2 later
      _ = t.rows ++ row :: rows := by rw [inserted, List.append_assoc, List.singleton_append]

/-- The rows of a kind that no new row is of. -/
theorem filter_insertNew {t : Table key} {rows : List ν} {p : ν → Bool}
    (none : ∀ row ∈ rows, p row = false) :
    (t.insertNew rows).rows.filter p = t.rows.filter p := by
  induction rows generalizing t with
  | nil => rfl
  | cons first rows ih =>
    have inserted : ((t.insert first).getD t).rows.filter p = t.rows.filter p := by
      by_cases fresh : ∀ r ∈ t.rows, key r ≠ key first
      · simp [rows_insert_fresh fresh, List.filter_append, none first List.mem_cons_self]
      · rw [insert, dif_neg fresh, Option.getD_none]
    exact (ih fun row h => none row (List.mem_cons_of_mem _ h)).trans inserted

/-- Rows that are their own keys form a set. -/
theorem mem_insertNew [DecidableEq ν] {t : Table (id : ν → ν)} {rows : List ν} {row : ν} :
    row ∈ (t.insertNew rows).rows ↔ row ∈ t.rows ∨ row ∈ rows := by
  induction rows generalizing t with
  | nil => simp [insertNew]
  | cons first rows ih =>
    have inserted : row ∈ ((t.insert first).getD t).rows ↔ row ∈ t.rows ∨ row = first := by
      by_cases fresh : ∀ r ∈ t.rows, id r ≠ id first
      · rw [rows_insert_fresh fresh, List.mem_append, List.mem_singleton]
      · have stored : first ∈ t.rows := by simpa using fresh
        rw [insert, dif_neg fresh, Option.getD_none]
        constructor
        · exact Or.inl
        · rintro (h | rfl)
          · exact h
          · exact stored
    calc row ∈ (t.insertNew (first :: rows)).rows
        ↔ row ∈ ((t.insert first).getD t).rows ∨ row ∈ rows := ih
      _ ↔ row ∈ t.rows ∨ row ∈ first :: rows := by rw [inserted, List.mem_cons, or_assoc]

theorem mem_upsert {t : Table key} {row other : ν} :
    other ∈ (t.upsert row).rows ↔ other = row ∨ other ∈ t.rows ∧ key other ≠ key row := by
  simp [upsert, filter, or_comm]

@[simp] theorem find_upsert_self (t : Table key) (row : ν) :
    (t.upsert row).find (key row) = some row := by simp [find_upsert]

theorem find_upsert_of_ne (t : Table key) {row : ν} {k : κ} (h : key row ≠ k) :
    (t.upsert row).find k = t.find k := by simp [find_upsert, h]

/-- A lookup finds one of the stored rows, or what it found before. -/
theorem find_upsertAll (t : Table key) (rows : List ν) (k : κ) :
    (∃ row ∈ rows, key row = k ∧ (t.upsertAll rows).find k = some row) ∨
      (∀ row ∈ rows, key row ≠ k) ∧ (t.upsertAll rows).find k = t.find k := by
  induction rows generalizing t with
  | nil => exact .inr ⟨fun _ h => absurd h List.not_mem_nil, rfl⟩
  | cons first rows ih =>
    have rest : (t.upsertAll (first :: rows)) = (t.upsert first).upsertAll rows := rfl
    rw [rest]
    rcases ih (t.upsert first) with ⟨row, later, same, found⟩ | ⟨none, found⟩
    · exact .inl ⟨row, List.mem_cons_of_mem _ later, same, found⟩
    · rw [found, find_upsert]
      by_cases same : key first = k
      · exact .inl ⟨first, List.mem_cons_self, same, if_pos same⟩
      · refine .inr ⟨?_, if_neg same⟩
        simpa using ⟨same, none⟩

/-- A lookup that agrees with one that finds nothing. -/
theorem rel_none {μ : Type} {R : μ → ν → Prop} {found : Option μ}
    (rel : Option.Rel R found none) : found = none := by
  cases rel
  rfl

theorem rel_some {μ : Type} {R : μ → ν → Prop} {found : Option μ} {row : ν}
    (rel : Option.Rel R found (some row)) : ∃ row', found = some row' ∧ R row' row := by
  cases rel with
  | some related => exact ⟨_, rfl, related⟩

end Table

end WgPortal.Library
