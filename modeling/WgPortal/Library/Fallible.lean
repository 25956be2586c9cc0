import WgPortal.Library.Program

/-! Programs that may fail: what holds if they do not. -/

namespace WgPortal.Library.Program

variable {Op : Type} {Res : Op → Type} {σ α β ε ε' : Type}
  {step : (op : Op) → σ → Res op → σ → Prop} {s : σ}

/-- Wherever the program succeeds, `post` holds. -/
def Yields (step : (op : Op) → σ → Res op → σ → Prop) (p : Program Op Res (Except ε α)) (s : σ)
    (post : α → σ → Prop) : Prop :=
  p.Always step s fun r t => ∀ v, r = .ok v → post v t

theorem yields_ok {v : α} {post : α → σ → Prop} (holds : post v s) :
    Yields step (ret (.ok v) : Program Op Res (Except ε α)) s post :=
  fun _ ok => Except.ok.inj ok ▸ holds

theorem yields_error (err : ε) (s : σ) (post : α → σ → Prop) :
    Yields step (ret (.error err) : Program Op Res (Except ε α)) s post :=
  fun _ ok => by cases ok

theorem Yields.mono {p : Program Op Res (Except ε α)} {post post' : α → σ → Prop}
    (yields : Yields step p s post) (weaker : ∀ v t, post v t → post' v t) :
    Yields step p s post' :=
  Always.mono yields fun _ t holds v ok => weaker v t (holds v ok)

/-- One program after the other; after an error of the first one, the whole fails. -/
theorem Yields.bind {p : Program Op Res (Except ε α)} {mid : α → σ → Prop}
    {rest : Except ε α → Program Op Res (Except ε' β)} {post : β → σ → Prop}
    (first : Yields step p s mid)
    (ends : ∀ err t, Yields step (rest (.error err)) t post)
    (second : ∀ v t, mid v t → Yields step (rest (.ok v)) t post) :
    Yields step (p >>= rest) s post := by
  refine Always.bind first fun r t holds => ?_
  cases r with
  | error err => exact ends err t
  | ok v => exact second v t (holds v rfl)

end WgPortal.Library.Program
