import Mathlib.Data.List.Induction
import WgPortal.Library.Transition

/-! What a machine shows of its runs, and how a run of a simpler machine explains it. -/

namespace WgPortal.Library

variable {σ α τ β : Type}

/-- The labels that a machine shows, each at the step that it belongs to. -/
def observed (step : τ → β → τ) (shown : τ → β → List α) : τ → List β → List α
  | _, [] => []
  | t, b :: history => shown t b ++ observed step shown (step t b) history

/-- If every step is what it shows, as the simpler machine sees it, then so is every run. -/
theorem runFrom_observed {next : σ → α → Option σ} {step : τ → β → τ} {shown : τ → β → List α}
    {abstracted : τ → σ} {allowed : β → Prop}
    (each : ∀ t b, allowed b →
      runFrom next (abstracted t) (shown t b) = some (abstracted (step t b)))
    (t : τ) (history : List β) (routed : ∀ b ∈ history, allowed b) :
    runFrom next (abstracted t) (observed step shown t history) =
      some (abstracted (history.foldl step t)) := by
  induction history generalizing t with
  | nil => rfl
  | cons b history ih =>
    have here := each t b (routed b List.mem_cons_self)
    have later := ih (step t b) fun b' mem => routed b' (List.mem_cons_of_mem b mem)
    rw [observed, runFrom_append, here, Option.bind_some, later, List.foldl_cons]

/-- If no step shows more than one label, a label belongs to one step. -/
theorem split_observed {step : τ → β → τ} {shown : τ → β → List α}
    {allowed : β → Prop} (single : ∀ t b, allowed b → (shown t b).length ≤ 1) {t : τ}
    {history : List β} (routed : ∀ b ∈ history, allowed b) {first second : List α} {a : α}
    (split : observed step shown t history = first ++ a :: second) :
    ∃ before b after, history = before ++ b :: after ∧ observed step shown t before = first ∧
      shown (before.foldl step t) b = [a] ∧
      observed step shown (step (before.foldl step t) b) after = second := by
  induction history generalizing t first with
  | nil => cases first <;> cases split
  | cons b history ih =>
    rw [observed] at split
    have short := single t b (routed b List.mem_cons_self)
    have later := fun b' mem => routed b' (List.mem_cons_of_mem b mem)
    match shows : shown t b with
    | [] =>
      rw [shows, List.nil_append] at split
      obtain ⟨before, b', after, rfl, here, shown, there⟩ := ih later split
      refine ⟨b :: before, b', after, rfl, ?_, shown, there⟩
      rw [observed, shows, here, List.nil_append]
    | [x] =>
      rw [shows, List.singleton_append] at split
      cases first with
      | nil =>
        obtain ⟨rfl, rest⟩ := List.cons.inj split
        exact ⟨[], b, history, rfl, rfl, shows, rest⟩
      | cons y first =>
        obtain ⟨rfl, rest⟩ := List.cons.inj split
        obtain ⟨before, b', after, rfl, here, shown, there⟩ := ih later rest
        refine ⟨b :: before, b', after, rfl, ?_, shown, there⟩
        rw [observed, shows, here, List.singleton_append]
    | x :: y :: rest =>
      rw [shows, List.length_cons, List.length_cons] at short
      omega

/-- A field that only some labels write has its value from the last of these, if there is one. -/
theorem runFrom_lastWriter {next : σ → α → Option σ} {γ : Type} {field : σ → γ}
    {writes : α → Prop} (framed : ∀ s a t, next s a = some t → ¬ writes a → field t = field s)
    {s t : σ} {labels : List α} (run : runFrom next s labels = some t) :
    ((∀ a ∈ labels, ¬ writes a) ∧ field t = field s) ∨
      ∃ before a after u v, labels = before ++ a :: after ∧ writes a ∧
        (∀ a' ∈ after, ¬ writes a') ∧ runFrom next s before = some u ∧ next u a = some v ∧
        field t = field v := by
  classical
  induction labels generalizing s with
  | nil =>
    rw [Option.some.inj run]
    exact .inl ⟨fun a mem => (List.not_mem_nil mem).elim, rfl⟩
  | cons a labels ih =>
    obtain ⟨s', taken, rest⟩ := runFrom_cons run
    rcases ih rest with ⟨none, same⟩ |
      ⟨before, b, after, u, v, split, written, last, run', step, same⟩
    · by_cases written : writes a
      · exact .inr ⟨[], a, labels, s, s', rfl, written, none, rfl, taken, same⟩
      · refine .inl ⟨fun a' mem => ?_, same.trans (framed s a s' taken written)⟩
        rcases List.mem_cons.mp mem with rfl | mem
        · exact written
        · exact none a' mem
    · refine .inr ⟨a :: before, b, after, u, v, by rw [split, List.cons_append], written, last, ?_,
        step, same⟩
      rw [runFrom, taken, Option.bind_some, run']

/-- If only granting steps make a property true, it holds from the start on, or since such a
step. -/
theorem holds_since {step : τ → β → τ} {P : τ → Prop} {grants : τ → β → Prop}
    (only : ∀ t b, P (step t b) → P t ∨ grants t b) (t : τ) (history : List β)
    (holds : P (history.foldl step t)) :
    (∀ early, early <+: history → P (early.foldl step t)) ∨
      ∃ before b after, history = before ++ b :: after ∧ grants (before.foldl step t) b ∧
        ∀ early, early <+: after → P ((before ++ b :: early).foldl step t) := by
  induction history using List.reverseRecOn with
  | nil => exact .inl fun early first => List.prefix_nil.mp first ▸ holds
  | append_singleton history b ih =>
    have last := holds
    rw [List.foldl_append, List.foldl_cons, List.foldl_nil] at holds
    rcases only _ b holds with already | granted
    · rcases ih already with always | ⟨before, b', after, rfl, granted, since⟩
      · refine .inl fun early first => ?_
        rcases List.prefix_concat_iff.mp first with rfl | earlier
        · exact last
        · exact always early earlier
      · refine .inr ⟨before, b', after ++ [b], by simp, granted, fun early first => ?_⟩
        rcases List.prefix_concat_iff.mp first with rfl | earlier
        · simpa using last
        · exact since early earlier
    · refine .inr ⟨history, b, [], rfl, granted, fun early first => ?_⟩
      rw [List.prefix_nil.mp first]
      exact last

end WgPortal.Library
