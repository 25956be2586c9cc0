import Mathlib.Data.Option.Basic

/-! Runs of a labelled transition function. A label that is not enabled has no
successor; a guard restricts the labels a run may take in a given state. -/

namespace WgPortal.Library

variable {σ α : Type} (next : σ → α → Option σ)

/-- The state reached by performing `labels` in order, if all are enabled. -/
def runFrom : σ → List α → Option σ
  | s, [] => some s
  | s, a :: labels => (next s a).bind fun s' => runFrom s' labels

/-- Every step of the run satisfies `guard` in the state it is taken from. -/
def Guarded (guard : σ → α → Prop) : σ → List α → Prop
  | _, [] => True
  | s, a :: labels => guard s a ∧ ∀ s', next s a = some s' → Guarded guard s' labels

variable {next}

theorem runFrom_cons {s t : σ} {a : α} {labels : List α}
    (h : runFrom next s (a :: labels) = some t) :
    ∃ s', next s a = some s' ∧ runFrom next s' labels = some t :=
  Option.bind_eq_some_iff.mp h

theorem runFrom_append (s : σ) (first second : List α) :
    runFrom next s (first ++ second) =
      (runFrom next s first).bind fun s' => runFrom next s' second := by
  induction first generalizing s with
  | nil => rfl
  | cons a first ih =>
    simp only [List.cons_append, runFrom]
    cases next s a with
    | none => rfl
    | some s' => simpa using ih s'

/-- The guard holds of a label in the state that the labels before it lead to. -/
theorem Guarded.reached {guard : σ → α → Prop} {s t : σ} {first rest : List α} {a : α}
    (guarded : Guarded next guard s (first ++ a :: rest)) (run : runFrom next s first = some t) :
    guard t a := by
  induction first generalizing s with
  | nil => exact Option.some.inj run ▸ guarded.1
  | cons b first ih =>
    obtain ⟨s', taken, run'⟩ := runFrom_cons run
    exact ih (guarded.2 s' taken) run'

/-- A property preserved by every guarded step holds along every guarded run. -/
theorem run_invariant {guard : σ → α → Prop} {inv : σ → Prop}
    (step : ∀ s a s', inv s → guard s a → next s a = some s' → inv s')
    {s t : σ} {labels : List α} (guarded : Guarded next guard s labels)
    (run : runFrom next s labels = some t) (start : inv s) : inv t := by
  induction labels generalizing s with
  | nil => exact Option.some.inj run ▸ start
  | cons a labels ih =>
    obtain ⟨s', taken, rest⟩ := runFrom_cons run
    exact ih (guarded.2 s' taken) rest (step s a s' start guarded.1 taken)

/-- A guard that an invariant implies for the steps that are taken. -/
theorem guarded_of_run {guard : σ → α → Prop} {inv : σ → Prop}
    (step : ∀ s a s', inv s → next s a = some s' → guard s a ∧ inv s') {s t : σ} {labels : List α}
    (run : runFrom next s labels = some t) (start : inv s) : Guarded next guard s labels := by
  induction labels generalizing s with
  | nil => trivial
  | cons a labels ih =>
    obtain ⟨s', taken, rest⟩ := runFrom_cons run
    refine ⟨(step s a s' start taken).1, fun other taken' => ?_⟩
    rw [← Option.some.inj (taken.symm.trans taken')]
    exact ih rest (step s a s' start taken).2

theorem Guarded.and {first second : σ → α → Prop} {s : σ} {labels : List α}
    (hfirst : Guarded next first s labels) (hsecond : Guarded next second s labels) :
    Guarded next (fun s a => first s a ∧ second s a) s labels := by
  induction labels generalizing s with
  | nil => trivial
  | cons a labels ih =>
    exact ⟨⟨hfirst.1, hsecond.1⟩, fun s' taken => ih (hfirst.2 s' taken) (hsecond.2 s' taken)⟩

theorem Guarded.mono {strong weak : σ → α → Prop} (weaker : ∀ s a, strong s a → weak s a) {s : σ}
    {labels : List α} (guarded : Guarded next strong s labels) : Guarded next weak s labels := by
  induction labels generalizing s with
  | nil => trivial
  | cons a labels ih => exact ⟨weaker s a guarded.1, fun s' taken => ih (guarded.2 s' taken)⟩

/-- Guards that agree as long as an invariant holds that one of them keeps. -/
theorem guarded_iff {first second : σ → α → Prop} {inv : σ → Prop}
    (step : ∀ s a s', inv s → second s a → next s a = some s' → inv s')
    (same : ∀ s a, inv s → (first s a ↔ second s a)) {s : σ} (start : inv s) (labels : List α) :
    Guarded next first s labels ↔ Guarded next second s labels := by
  induction labels generalizing s with
  | nil => exact Iff.rfl
  | cons a labels ih =>
    constructor
    · rintro ⟨here, later⟩
      have kept := (same s a start).mp here
      exact ⟨kept, fun s' taken => (ih (step s a s' start kept taken)).mp (later s' taken)⟩
    · rintro ⟨kept, later⟩
      exact ⟨(same s a start).mpr kept,
        fun s' taken => (ih (step s a s' start kept taken)).mpr (later s' taken)⟩

/-- Guards that agree as long as an invariant holds. -/
theorem guarded_congr {first second : σ → α → Prop} {inv : σ → Prop}
    (step : ∀ s a s', inv s → next s a = some s' → inv s')
    (same : ∀ s a, inv s → (first s a ↔ second s a)) {s : σ} (start : inv s) (labels : List α) :
    Guarded next first s labels ↔ Guarded next second s labels :=
  guarded_iff (fun s a s' holds _ taken => step s a s' holds taken) same start labels

/-- A guard that allows these labels in every state. -/
theorem guarded_of_mem {guard : σ → α → Prop} {labels : List α}
    (each : ∀ a ∈ labels, ∀ s, guard s a) (s : σ) : Guarded next guard s labels := by
  induction labels generalizing s with
  | nil => trivial
  | cons a labels ih =>
    have rest := ih fun b later => each b (List.mem_cons_of_mem a later)
    exact ⟨each a List.mem_cons_self s, fun s' _ => rest s'⟩

/-- A guard that allows every label. -/
theorem guarded_of_all {guard : σ → α → Prop} (all : ∀ s a, guard s a) (s : σ) (labels : List α) :
    Guarded next guard s labels := guarded_of_mem (fun a _ s => all s a) s

instance instDecidableGuarded {guard : σ → α → Prop} [∀ s a, Decidable (guard s a)] (s : σ) (labels : List α) :
    Decidable (Guarded next guard s labels) :=
  match labels with
  | [] => isTrue trivial
  | a :: labels =>
    match h : next s a with
    | none => decidable_of_iff (guard s a) (by simp [Guarded, h])
    | some s' =>
      have : Decidable (Guarded next guard s' labels) := instDecidableGuarded s' labels
      decidable_of_iff (guard s a ∧ Guarded next guard s' labels) (by simp [Guarded, h])

end WgPortal.Library
