import Mathlib.Data.Nat.Notation
import Mathlib.Logic.Function.Basic

/-! Programs that issue operations one at a time. An operation `op` answers with
a value of `Res op`, and what the program does next depends on the answer. The
operations are the points at which other programs may run. -/

namespace WgPortal.Library

inductive Program (Op : Type) (Res : Op → Type) (α : Type) where
  | ret (value : α)
  | call (op : Op) (next : Res op → Program Op Res α)

namespace Program

variable {Op : Type} {Res : Op → Type} {α β γ σ : Type}

def bind : Program Op Res α → (α → Program Op Res β) → Program Op Res β
  | ret a, f => f a
  | call op next, f => call op fun answer => (next answer).bind f

instance : Monad (Program Op Res) where
  pure := ret
  bind := bind

/-- Issue one operation and return its answer. -/
def perform (op : Op) : Program Op Res (Res op) := call op ret

/-- Issue the operations of a program through those of another interface. -/
def embed {Op' : Type} {Res' : Op' → Type} (f : (op : Op) → Program Op' Res' (Res op)) :
    Program Op Res α → Program Op' Res' α
  | ret a => ret a
  | call op next => f op >>= fun answer => (next answer).embed f

@[simp] theorem pure_eq (a : α) : (pure a : Program Op Res α) = ret a := rfl

@[simp] theorem ret_bind (a : α) (f : α → Program Op Res β) :
    (ret a : Program Op Res α) >>= f = f a := rfl

@[simp] theorem call_bind (op : Op) (next : Res op → Program Op Res α)
    (f : α → Program Op Res β) : call op next >>= f = call op fun answer => next answer >>= f := rfl

@[simp] theorem perform_bind (op : Op) (f : Res op → Program Op Res β) :
    (perform op : Program Op Res (Res op)) >>= f = call op f := rfl

theorem bind_assoc (p : Program Op Res α) (f : α → Program Op Res β)
    (g : β → Program Op Res γ) : (p >>= f) >>= g = p >>= fun a => f a >>= g := by
  induction p with
  | ret a => rfl
  | call op next ih => exact congrArg (call op) (funext ih)

theorem embed_bind {Op' : Type} {Res' : Op' → Type} (g : (op : Op) → Program Op' Res' (Res op))
    (p : Program Op Res α) (f : α → Program Op Res β) :
    (p >>= f).embed g = p.embed g >>= fun a => (f a).embed g := by
  induction p with
  | ret a => rfl
  | call op next ih =>
    have steps : ∀ answer, (next answer >>= f).embed g =
        (next answer).embed g >>= fun a => (f a).embed g := ih
    simp only [call_bind, embed, bind_assoc, steps]

/-- Run a program to its end with nothing in between its operations. -/
def eval (exec : (op : Op) → σ → Res op × σ) : Program Op Res α → σ → α × σ
  | ret a, s => (a, s)
  | call op next, s => eval exec (next (exec op s).1) (exec op s).2

@[simp] theorem eval_ret (exec : (op : Op) → σ → Res op × σ) (a : α) (s : σ) :
    eval exec (ret a) s = (a, s) := rfl

@[simp] theorem eval_call (exec : (op : Op) → σ → Res op × σ) (op : Op)
    (next : Res op → Program Op Res α) (s : σ) :
    eval exec (call op next) s = eval exec (next (exec op s).1) (exec op s).2 := rfl

theorem eval_bind (exec : (op : Op) → σ → Res op × σ) (p : Program Op Res α)
    (f : α → Program Op Res β) (s : σ) :
    eval exec (p >>= f) s = eval exec (f (eval exec p s).1) (eval exec p s).2 := by
  induction p generalizing s with
  | ret a => rfl
  | call op next ih => exact ih _ _

/-- Every operation that the program may issue satisfies `P`. -/
def Uses (P : Op → Prop) : Program Op Res α → Prop
  | ret _ => True
  | call op next => P op ∧ ∀ answer, (next answer).Uses P

theorem Uses.bind {P : Op → Prop} {p : Program Op Res α} {f : α → Program Op Res β}
    (first : p.Uses P) (rest : ∀ a, (f a).Uses P) : (p >>= f).Uses P := by
  induction p with
  | ret a => exact rest a
  | call op next ih => exact ⟨first.1, fun answer => ih answer (first.2 answer)⟩

theorem Uses.of_all {P : Op → Prop} (all : ∀ op, P op) (p : Program Op Res α) : p.Uses P := by
  induction p with
  | ret a => trivial
  | call op next ih => exact ⟨all op, ih⟩

theorem Uses.mono {P Q : Op → Prop} {p : Program Op Res α} (uses : p.Uses P)
    (weaker : ∀ op, P op → Q op) : p.Uses Q := by
  induction p with
  | ret a => trivial
  | call op next ih => exact ⟨weaker op uses.1, fun answer => ih answer (uses.2 answer)⟩

/-- A property that the issued operations keep is kept by the program. -/
theorem Uses.eval_invariant {P : Op → Prop} {exec : (op : Op) → σ → Res op × σ} {inv : σ → Prop}
    (step : ∀ op s, P op → inv s → inv (exec op s).2) {p : Program Op Res α} (uses : p.Uses P)
    {s : σ} (start : inv s) : inv (eval exec p s).2 := by
  induction p generalizing s with
  | ret a => exact start
  | call op next ih => exact ih _ (uses.2 _) (step op s uses.1 start)

theorem Uses.embed {Op' : Type} {Res' : Op' → Type} {P : Op' → Prop}
    {f : (op : Op) → Program Op' Res' (Res op)} (each : ∀ op, (f op).Uses P)
    (p : Program Op Res α) : (p.embed f).Uses P := by
  induction p with
  | ret a => trivial
  | call op next ih => exact (each op).bind ih

/-- What is noted of the operations of a run, whose `n`-th operation is answered by `answers n`. -/
def log {β : Type} (note : Op → List β) :
    (answers : ℕ → (op : Op) → Res op) → Program Op Res α → List β
  | _, ret _ => []
  | answers, call op next => note op ++ (next (answers 0 op)).log note fun n => answers (n + 1)

/-- Whatever the answers are, only what the operations of the program can note is noted. -/
theorem Uses.log {β : Type} {note : Op → List β} {Q : β → Prop} {p : Program Op Res α}
    (uses : p.Uses fun op => ∀ b ∈ note op, Q b) (answers : ℕ → (op : Op) → Res op) :
    ∀ b ∈ p.log note answers, Q b := by
  induction p generalizing answers with
  | ret a => exact fun b listed => (by cases listed)
  | call op next ih =>
    intro b listed
    rcases List.mem_append.mp listed with now | later
    · exact uses.1 b now
    · exact ih _ (uses.2 _) _ b later

theorem Uses.log_eq_nil {β : Type} {note : Op → List β} {p : Program Op Res α}
    (uses : p.Uses fun op => note op = []) (answers : ℕ → (op : Op) → Res op) :
    p.log note answers = [] := by
  refine List.eq_nil_iff_forall_not_mem.mpr ((uses.mono fun op none => ?_).log answers)
  rw [none]
  exact fun b listed => (by cases listed)

/-- What the steps of an evaluation add to a list in the state is noted for some answers. -/
theorem exists_log {β : Type} {note : Op → List β} {exec : (op : Op) → σ → Res op × σ}
    {noted : σ → List β} (each : ∀ op s, noted (exec op s).2 = noted s ++ note op)
    (p : Program Op Res α) (s : σ) :
    ∃ answers, noted (p.eval exec s).2 = noted s ++ p.log note answers := by
  induction p generalizing s with
  | ret a => exact ⟨fun _ op => (exec op s).1, (List.append_nil _).symm⟩
  | call op next ih =>
    obtain ⟨answers, same⟩ := ih (exec op s).1 (exec op s).2
    refine ⟨fun n other => n.casesOn (exec other s).1 fun n => answers n other, ?_⟩
    rw [eval_call, same, each, List.append_assoc]
    rfl

/-- Wherever the operations may lead from `s`, each by one of the `step`s it can
take, the program ends in `post`. -/
def Always (step : (op : Op) → σ → Res op → σ → Prop) :
    Program Op Res α → σ → (α → σ → Prop) → Prop
  | ret a, s, post => post a s
  | call op next, s, post =>
    ∀ answer t, step op s answer t → (next answer).Always step t post

section Always

variable {step : (op : Op) → σ → Res op → σ → Prop}

theorem always_perform_bind {op : Op} {f : Res op → Program Op Res α} {s : σ}
    {post : α → σ → Prop} : (perform op >>= f).Always step s post ↔
      ∀ answer t, step op s answer t → (f answer).Always step t post := Iff.rfl

theorem Always.mono {p : Program Op Res α} {s : σ} {post post' : α → σ → Prop}
    (always : p.Always step s post) (weaker : ∀ a t, post a t → post' a t) :
    p.Always step s post' := by
  induction p generalizing s with
  | ret a => exact weaker a s always
  | call op next ih => exact fun answer t can => ih answer (always answer t can)

theorem Always.and {p : Program Op Res α} {s : σ} {post post' : α → σ → Prop}
    (first : p.Always step s post) (second : p.Always step s post') :
    p.Always step s fun a t => post a t ∧ post' a t := by
  induction p generalizing s with
  | ret a => exact ⟨first, second⟩
  | call op next ih => exact fun answer t can => ih answer (first answer t can) (second answer t can)

theorem always_of_all {post : α → σ → Prop} (all : ∀ a t, post a t) (p : Program Op Res α) (s : σ) :
    p.Always step s post := by
  induction p generalizing s with
  | ret a => exact all a s
  | call op next ih => exact fun answer t _ => ih answer t

theorem Always.bind {p : Program Op Res α} {f : α → Program Op Res β} {s : σ}
    {mid : α → σ → Prop} {post : β → σ → Prop} (first : p.Always step s mid)
    (rest : ∀ a t, mid a t → (f a).Always step t post) : (p >>= f).Always step s post := by
  induction p generalizing s with
  | ret a => exact rest a s first
  | call op next ih => exact fun answer t can => ih answer (first answer t can)

/-- What every issued operation keeps is kept by the program. -/
theorem Uses.always {P : Op → Prop} {inv : σ → Prop}
    (keeps : ∀ op s answer t, P op → inv s → step op s answer t → inv t) {p : Program Op Res α}
    (uses : p.Uses P) {s : σ} (start : inv s) : p.Always step s fun _ t => inv t := by
  induction p generalizing s with
  | ret a => exact start
  | call op next ih =>
    intro answer t can
    exact ih answer (uses.2 answer) (keeps op s answer t uses.1 start can)

/-- A program that runs on a state with more to it, which the steps do not see. -/
theorem Always.eval {τ : Type} {view : τ → σ} {exec : (op : Op) → τ → Res op × τ}
    (steps : ∀ op t, step op (view t) (exec op t).1 (view (exec op t).2)) {p : Program Op Res α}
    {t : τ} {post : α → σ → Prop} (always : p.Always step (view t) post) :
    post (eval exec p t).1 (view (eval exec p t).2) := by
  induction p generalizing t with
  | ret a => exact always
  | call op next ih => exact ih _ (always _ _ (steps op t))

/-- A program of another interface, on a state with more to it. -/
theorem Always.embed {Op' τ : Type} {Res' : Op' → Type} {step' : (op : Op') → τ → Res' op → τ → Prop}
    {view : τ → σ} {inv : τ → Prop} {f : (op : Op) → Program Op' Res' (Res op)}
    (each : ∀ op t, inv t → (f op).Always step' t fun answer t' =>
      step op (view t) answer (view t') ∧ inv t') {p : Program Op Res α} {t : τ}
    {post : α → σ → Prop} (always : p.Always step (view t) post) (start : inv t) :
    (p.embed f).Always step' t fun a t' => post a (view t') ∧ inv t' := by
  induction p generalizing t with
  | ret a => exact ⟨always, start⟩
  | call op next ih =>
    refine (each op t start).bind fun answer t' steps => ?_
    exact ih answer (always answer _ steps.1) steps.2

/-- Every operation of the run meets `P` in the state it is issued in. -/
def Along (exec : (op : Op) → σ → Res op × σ) (P : Op → σ → Prop) : Program Op Res α → σ → Prop
  | ret _, _ => True
  | call op next, s => P op s ∧ (next (exec op s).1).Along exec P (exec op s).2

theorem along_of_all {exec : (op : Op) → σ → Res op × σ} {P : Op → σ → Prop}
    (all : ∀ op s, P op s) (p : Program Op Res α) (s : σ) : p.Along exec P s := by
  induction p generalizing s with
  | ret a => trivial
  | call op next ih => exact ⟨all op s, ih _ _⟩

theorem Along.mono {exec : (op : Op) → σ → Res op × σ} {P Q : Op → σ → Prop}
    (weaker : ∀ op s, P op s → Q op s) {p : Program Op Res α} {s : σ} (along : p.Along exec P s) :
    p.Along exec Q s := by
  induction p generalizing s with
  | ret a => trivial
  | call op next ih => exact ⟨weaker op s along.1, ih _ along.2⟩

theorem Along.and {exec : (op : Op) → σ → Res op × σ} {P Q : Op → σ → Prop} {p : Program Op Res α}
    {s : σ} (first : p.Along exec P s) (second : p.Along exec Q s) :
    p.Along exec (fun op s => P op s ∧ Q op s) s := by
  induction p generalizing s with
  | ret a => trivial
  | call op next ih => exact ⟨⟨first.1, second.1⟩, ih _ first.2 second.2⟩

/-- A run that takes such steps, on a state with more to it. -/
theorem Always.along {τ : Type} {view : τ → σ} {exec : (op : Op) → τ → Res op × τ}
    {p : Program Op Res α} {t : τ} {post : α → σ → Prop} (always : p.Always step (view t) post)
    (steps : p.Along exec (fun op t => step op (view t) (exec op t).1 (view (exec op t).2)) t) :
    post (Program.eval exec p t).1 (view (Program.eval exec p t).2) := by
  induction p generalizing t with
  | ret a => exact always
  | call op next ih => exact ih _ (always _ _ steps.1) steps.2

end Always

end Program

end WgPortal.Library
