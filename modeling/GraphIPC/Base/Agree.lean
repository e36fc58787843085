-- SUMMARY: Two computations that agree up to a relation on their results, and two machines that take the same steps.
import GraphIPC.Base.Machine

/-!
# Agreement

A program that is written once and run over two representations of its data ends in the
same error over both or in results that are related. Where the first representation has
errors of its own, the first program may also stop early. The relation is carried through
sequences and, from step to step, through runs.
-/

/-- The same error, or results that are related. If `stops` holds, the first may also end
    in an error of its own. -/
inductive Except.Agree {ε α β : Type*} (stops : Prop) (R : α → β → Prop) :
    Except ε α → Except ε β → Prop where
  | ok {a : α} {b : β} : R a b → Agree stops R (.ok a) (.ok b)
  | error (e : ε) : Agree stops R (.error e) (.error e)
  | stop (e : ε) (y : Except ε β) : stops → Agree stops R (.error e) y

namespace Except.Agree

section Results

variable {ε α β : Type*} {stops : Prop} {R S : α → β → Prop} {x : Except ε α} {y : Except ε β}

theorem mono (h : Agree stops R x y) (hRS : ∀ a b, R a b → S a b) : Agree stops S x y := by
  cases h with
  | ok hab => exact .ok (hRS _ _ hab)
  | error e => exact .error e
  | stop e y hstops => exact .stop e y hstops

theorem of_ok_left {a : α} (h : Agree stops R x y) (hx : x = .ok a) : ∃ b, y = .ok b ∧ R a b := by
  subst hx
  cases h with
  | ok hab => exact ⟨_, rfl, hab⟩

theorem of_ok_right {b : β} (h : Agree False R x y) (hy : y = .ok b) : ∃ a, x = .ok a ∧ R a b := by
  subst hy
  cases h with
  | ok hab => exact ⟨_, rfl, hab⟩
  | stop e y hstops => exact hstops.elim

end Results

section Sequences

variable {ε α β γ δ : Type} {stops : Prop} {R : α → β → Prop} {S : γ → δ → Prop}

/-- Sequences agree if their parts do. -/
theorem bind {x : Except ε α} {y : Except ε β} {f : α → Except ε γ} {g : β → Except ε δ}
    (h : Agree stops R x y)
    (hfg : ∀ a b, x = .ok a → y = .ok b → R a b → Agree stops S (f a) (g b)) :
    Agree stops S (x >>= f) (y >>= g) := by
  cases h with
  | ok hab => exact hfg _ _ rfl rfl hab
  | error e => exact .error e
  | stop e y hstops => exact .stop e _ hstops

/-- What does not depend on the representation comes first. -/
theorem bind_same {x : Except ε α} {f : α → Except ε γ} {g : α → Except ε δ}
    (h : ∀ a, x = .ok a → Agree stops S (f a) (g a)) : Agree stops S (x >>= f) (x >>= g) := by
  cases x with
  | error e => exact .error e
  | ok a => exact h a rfl

end Sequences

end Except.Agree

/-! ## Runs -/

/-- A run that is allowed less is allowed more. -/
theorem Machine.Run.mono {σ ι ω ε : Type*} {allowed allowed' : σ → ι → Prop}
    {step : σ → ι → Except ε (σ × ω)} {s₀ s : σ} {tr : List (ι × ω)}
    (hrun : Machine.Run allowed step s₀ tr s) (h : ∀ s i, allowed s i → allowed' s i) :
    Machine.Run allowed' step s₀ tr s := by
  induction hrun with
  | nil => exact .nil
  | snoc _ hallowed hstep ih => exact .snoc ih (h _ _ hallowed) hstep

/-- The simulation rule: if a machine can take every step that another takes in a related
    state, then it has every run that the other has. Whatever else the steps need may be a
    property that holds of earlier states when it holds of later ones. -/
theorem Machine.Run.follow {σ τ ι ω ε : Type*} {allowed : σ → ι → Prop}
    {step : σ → ι → Except ε (σ × ω)} {allowed' : τ → ι → Prop} {step' : τ → ι → Except ε (τ × ω)}
    {R : σ → τ → Prop} {P : σ → Prop}
    (back : ∀ s i o s', allowed s i → step s i = .ok (s', o) → P s' → P s)
    (follows : ∀ s t i o s', R s t → P s → allowed s i → step s i = .ok (s', o) →
      ∃ t', allowed' t i ∧ step' t i = .ok (t', o) ∧ R s' t')
    {s₀ s : σ} {t₀ : τ} {tr : List (ι × ω)} (hrun : Machine.Run allowed step s₀ tr s) (hP : P s)
    (hR : R s₀ t₀) : ∃ t, Machine.Run allowed' step' t₀ tr t ∧ R s t := by
  induction hrun with
  | nil => exact ⟨t₀, .nil, hR⟩
  | snoc hprev hallowed hstep ih =>
    have hPprev := back _ _ _ _ hallowed hstep hP
    obtain ⟨t, hrun', hRt⟩ := ih hPprev
    obtain ⟨t', hallowed', hstep', hRt'⟩ := follows _ _ _ _ _ hRt hPprev hallowed hstep
    exact ⟨t', .snoc hrun' hallowed' hstep', hRt'⟩
