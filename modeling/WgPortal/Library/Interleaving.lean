import Mathlib.Logic.Function.Basic
import WgPortal.Library.Program
import WgPortal.Library.Transition

/-! Programs interleaved over one shared state, at the granularity of single
operations, together with an environment that may act between any two of them.
`Sound` is the rely-guarantee judgement for one thread; `Contract.preserved`
composes the judgements of all threads to an invariant of every guarded run. -/

namespace WgPortal.Library

/-- `Fault` is what the scheduler decides about one operation besides its turn,
for instance that a statement fails. -/
structure System (ι Env Call Op : Type) (Res : Op → Type) (Fault α σ : Type) where
  exec : ι → (op : Op) → Fault → σ → Res op × σ
  env : Env → σ → Option σ
  start : ι → Call → σ → Option (Program Op Res α × σ)
  finish : ι → α → σ → σ

structure Pool (ι Op : Type) (Res : Op → Type) (α σ : Type) where
  shared : σ
  thread : ι → Option (Program Op Res α)

inductive Turn (ι Env Call Fault : Type) where
  | env (e : Env)
  | start (i : ι) (c : Call)
  | step (i : ι) (f : Fault)

namespace System

variable {ι Env Call Op : Type} {Res : Op → Type} {Fault α σ : Type}

/-- The pool with shared state `s` and no running thread. -/
def idle (s : σ) : Pool ι Op Res α σ := ⟨s, fun _ => none⟩

variable [DecidableEq ι] (sys : System ι Env Call Op Res Fault α σ)

def next (p : Pool ι Op Res α σ) : Turn ι Env Call Fault → Option (Pool ι Op Res α σ)
  | .env e => (sys.env e p.shared).map fun s => ⟨s, p.thread⟩
  | .start i c =>
    match p.thread i with
    | some _ => none
    | none => (sys.start i c p.shared).map fun r =>
        ⟨r.2, Function.update p.thread i (some r.1)⟩
  | .step i f =>
    match p.thread i with
    | none => none
    | some (.ret a) => some ⟨sys.finish i a p.shared, Function.update p.thread i none⟩
    | some (.call op rest) =>
      let answer := sys.exec i op f p.shared
      some ⟨answer.2, Function.update p.thread i (some (rest answer.1))⟩

/-- The conditions of a guarded run, as they bear on each kind of turn. -/
structure Guard (ι Env Call Op Fault σ : Type) where
  env : σ → Env → Prop
  start : σ → ι → Call → Prop
  step : σ → ι → Op → Fault → Prop

variable {sys}

def Guard.turn (g : Guard ι Env Call Op Fault σ) (p : Pool ι Op Res α σ) :
    Turn ι Env Call Fault → Prop
  | .env e => g.env p.shared e
  | .start i c => g.start p.shared i c
  | .step i f => ∀ op rest, p.thread i = some (.call op rest) → g.step p.shared i op f

instance (g : Guard ι Env Call Op Fault σ) [∀ s e, Decidable (g.env s e)]
    [∀ s i c, Decidable (g.start s i c)] [∀ s i op f, Decidable (g.step s i op f)]
    (p : Pool ι Op Res α σ) (turn : Turn ι Env Call Fault) : Decidable (g.turn p turn) :=
  match turn with
  | .env e => inferInstanceAs (Decidable (g.env p.shared e))
  | .start i c => inferInstanceAs (Decidable (g.start p.shared i c))
  | .step i f =>
    match h : p.thread i with
    | some (.call op rest) => decidable_of_iff (g.step p.shared i op f) <| by
        constructor
        · intro allowed op' rest' same
          rw [h] at same
          cases same
          exact allowed
        · exact fun allowed => allowed op rest h
    | some (.ret _) => isTrue (by simp [Guard.turn, h])
    | none => isTrue (by simp [Guard.turn, h])

/-- The threads of a pool all satisfy `T`. -/
def Threads (T : Program Op Res α → Prop) (p : Pool ι Op Res α σ) : Prop :=
  ∀ i prog, p.thread i = some prog → T prog

theorem threads_update {T : Program Op Res α → Prop} {p : Pool ι Op Res α σ} (threads : Threads T p)
    {i : ι} {thread : Option (Program Op Res α)} (here : ∀ prog, thread = some prog → T prog)
    (s : σ) : Threads T ⟨s, Function.update p.thread i thread⟩ := by
  intro j prog running
  by_cases same : j = i
  · subst same
    exact here prog (by simpa using running)
  · exact threads j prog (by simpa [Function.update_of_ne same] using running)

/-- What holds of the programs that are started and stays true of their rest, whatever
an operation answers in this system, holds of all threads. -/
theorem threads_run {T : Program Op Res α → Prop}
    (start : ∀ i call s prog t, sys.start i call s = some (prog, t) → T prog)
    (step : ∀ i op rest f s, T (.call op rest) → T (rest (sys.exec i op f s).1))
    {s : σ} {turns : List (Turn ι Env Call Fault)} {q : Pool ι Op Res α σ}
    (run : runFrom sys.next (idle s) turns = some q) : Threads T q := by
  refine run_invariant ?_ (guarded_of_all (fun _ _ => trivial) _ turns) run
    (fun i prog running => by cases running)
  intro p turn q threads _ taken
  cases turn with
  | env e =>
    obtain ⟨t, _, rfl⟩ := Option.map_eq_some_iff.mp taken
    exact threads
  | start i call =>
    simp only [next] at taken
    split at taken
    · cases taken
    · obtain ⟨⟨prog, t⟩, started, rfl⟩ := Option.map_eq_some_iff.mp taken
      exact threads_update threads (fun _ same => Option.some.inj same ▸ start i call _ prog t started) t
  | step i f =>
    simp only [next] at taken
    split at taken
    · cases taken
    · rw [← Option.some.inj taken]
      exact threads_update threads (fun _ none => by cases none) _
    · rename_i op rest here
      rw [← Option.some.inj taken]
      exact threads_update threads
        (fun _ same => Option.some.inj same ▸ step i op rest f _ (threads i _ here)) _

/-- An invariant of the shared state, and for each thread what it may rely on
from all others. -/
structure Contract (ι σ : Type) where
  inv : σ → Prop
  rely : ι → σ → σ → Prop
  refl : ∀ i s, rely i s s
  trans : ∀ i s t u, rely i s t → rely i t u → rely i s u

namespace Contract

variable (c : Contract ι σ)

/-- A change that keeps the invariant and what every thread but `i` relies on. -/
def Keeps (i : ι) (s t : σ) : Prop := c.inv t ∧ ∀ j, j ≠ i → c.rely j s t

variable (sys) (g : Guard ι Env Call Op Fault σ)

/-- Thread `i` may continue with the program from `s`: each of its operations
keeps the contract, whatever the others did in between, and it ends with `post`. -/
def Sound (i : ι) {β : Type} (post : β → σ → Prop) : Program Op Res β → σ → Prop
  | .ret b, s => ∀ t, c.rely i s t → c.inv t → post b t
  | .call op rest, s => ∀ t f, c.rely i s t → c.inv t → g.step t i op f →
      c.Keeps i t (sys.exec i op f t).2 ∧
        Sound i post (rest (sys.exec i op f t).1) (sys.exec i op f t).2

/-- What a thread ends with: its last turn keeps the contract, too. -/
def Finishes (i : ι) (a : α) (s : σ) : Prop := c.Keeps i s (sys.finish i a s)

variable {sys c g}

omit [DecidableEq ι] in
theorem Sound.stable {i : ι} {β : Type} {post : β → σ → Prop} {p : Program Op Res β} {s t : σ}
    (sound : c.Sound sys g i post p s) (later : c.rely i s t) : c.Sound sys g i post p t := by
  cases p with
  | ret b => exact fun u hu => sound u (c.trans i s t u later hu)
  | call op rest => exact fun u f hu => sound u f (c.trans i s t u later hu)

omit [DecidableEq ι] in
theorem Sound.bind {i : ι} {β γ : Type} {mid : β → σ → Prop} {post : γ → σ → Prop}
    {p : Program Op Res β} {f : β → Program Op Res γ} {s : σ} (first : c.Sound sys g i mid p s)
    (inv : c.inv s) (next : ∀ b t, c.inv t → mid b t → c.Sound sys g i post (f b) t) :
    c.Sound sys g i post (p >>= f) s := by
  induction p generalizing s with
  | ret b => exact next b s inv (first s (c.refl i s) inv)
  | call op rest ih =>
    intro t fault later holds allowed
    obtain ⟨keeps, sound⟩ := first t fault later holds allowed
    exact ⟨keeps, ih _ sound keeps.1⟩

omit [DecidableEq ι] in
theorem Sound.mono {i : ι} {β : Type} {post post' : β → σ → Prop} {p : Program Op Res β} {s : σ}
    (sound : c.Sound sys g i post p s) (weaker : ∀ b t, c.inv t → post b t → post' b t) :
    c.Sound sys g i post' p s := by
  induction p generalizing s with
  | ret b => exact fun t later inv => weaker b t inv (sound t later inv)
  | call op rest ih =>
    intro t fault later holds allowed
    obtain ⟨keeps, rest⟩ := sound t fault later holds allowed
    exact ⟨keeps, ih _ rest⟩

omit [DecidableEq ι] in
/-- Operations that keep the contract and a condition the others leave alone. -/
theorem Sound.of_uses {P : Op → Prop} {Q : σ → Prop} {i : ι} {β : Type} {p : Program Op Res β}
    (stable : ∀ s t, c.rely i s t → Q s → Q t)
    (each : ∀ op t f, P op → c.inv t → Q t → g.step t i op f →
      c.Keeps i t (sys.exec i op f t).2 ∧ Q (sys.exec i op f t).2)
    (uses : p.Uses P) {s : σ} (start : Q s) : c.Sound sys g i (fun _ => Q) p s := by
  induction p generalizing s with
  | ret b => exact fun t later _ => stable s t later start
  | call op rest ih =>
    intro t f later inv allowed
    have step := each op t f uses.1 inv (stable s t later start) allowed
    exact ⟨step.1, ih _ (uses.2 _) step.2⟩

/-- What the environment and the calls owe the contract. -/
structure Upheld (sys : System ι Env Call Op Res Fault α σ) (c : Contract ι σ)
    (g : Guard ι Env Call Op Fault σ) : Prop where
  env : ∀ e s t, c.inv s → g.env s e → sys.env e s = some t →
    c.inv t ∧ ∀ i, c.rely i s t
  start : ∀ i call s p t, c.inv s → g.start s i call → sys.start i call s = some (p, t) →
    c.Keeps i s t ∧ c.Sound sys g i (c.Finishes sys i) p t

/-- The invariant of a pool: that of its shared state, and sound threads. -/
def Holds (sys : System ι Env Call Op Res Fault α σ) (c : Contract ι σ)
    (g : Guard ι Env Call Op Fault σ) (p : Pool ι Op Res α σ) : Prop :=
  c.inv p.shared ∧
    ∀ i prog, p.thread i = some prog → c.Sound sys g i (c.Finishes sys i) prog p.shared

private theorem holds_update {p : Pool ι Op Res α σ} {i : ι} {t : σ}
    (holds : Holds sys c g p) (keeps : c.Keeps i p.shared t)
    {thread : Option (Program Op Res α)}
    (sound : ∀ prog, thread = some prog → c.Sound sys g i (c.Finishes sys i) prog t) :
    Holds sys c g ⟨t, Function.update p.thread i thread⟩ := by
  refine ⟨keeps.1, ?_⟩
  intro j prog hj
  by_cases h : j = i
  · subst h
    exact sound prog (by simpa using hj)
  · have before : p.thread j = some prog := by simpa [Function.update_of_ne h] using hj
    exact (holds.2 j prog before).stable (keeps.2 j h)

theorem holds_next (upheld : Upheld sys c g) {p q : Pool ι Op Res α σ}
    {turn : Turn ι Env Call Fault} (holds : Holds sys c g p) (allowed : g.turn p turn)
    (step : sys.next p turn = some q) : Holds sys c g q := by
  cases turn with
  | env e =>
    obtain ⟨t, ht, rfl⟩ := Option.map_eq_some_iff.mp step
    obtain ⟨inv, rely⟩ := upheld.env e p.shared t holds.1 allowed ht
    exact ⟨inv, fun i prog hi => (holds.2 i prog hi).stable (rely i)⟩
  | start i call =>
    simp only [next] at step
    split at step
    · cases step
    · obtain ⟨⟨prog, t⟩, ht, rfl⟩ := Option.map_eq_some_iff.mp step
      obtain ⟨keeps, sound⟩ := upheld.start i call p.shared prog t holds.1 allowed ht
      exact holds_update holds keeps fun other h => Option.some.inj h ▸ sound
  | step i f =>
    simp only [next] at step
    split at step
    · cases step
    · rename_i a hi
      obtain rfl := Option.some.inj step
      have keeps := holds.2 i _ hi p.shared (c.refl i _) holds.1
      exact holds_update holds keeps fun _ h => by cases h
    · rename_i op rest hi
      obtain rfl := Option.some.inj step
      obtain ⟨keeps, sound⟩ :=
        holds.2 i _ hi p.shared f (c.refl i _) holds.1 (allowed op rest hi)
      exact holds_update holds keeps fun other h => Option.some.inj h ▸ sound

/-- The invariant holds in every state that a guarded run reaches. -/
theorem preserved (upheld : Upheld sys c g) {s : σ} {turns : List (Turn ι Env Call Fault)}
    {q : Pool ι Op Res α σ} (start : c.inv s)
    (guarded : Guarded sys.next g.turn (idle s) turns)
    (run : runFrom sys.next (idle s) turns = some q) : c.inv q.shared := by
  have holds : Holds sys c g q := by
    refine run_invariant (fun _ _ _ h => holds_next upheld h) guarded run ⟨start, ?_⟩
    intro i prog h
    cases h
  exact holds.1

end Contract

end System

end WgPortal.Library
