-- SUMMARY: Runs of a step function that may stop with an error, and the rules to reason about their histories.
import Mathlib.Data.List.Basic
import Mathlib.Data.List.Induction

/-!
# Runs of a machine

A machine is a step function on states: every step consumes one input, emits
one output and may stop with an error. Which inputs are allowed in a state is up
to its environment. A run is recorded by its history, the inputs it consumed
paired with the outputs it emitted. A property of a run may speak about the whole
history, which is what a law about "the last request" or "the bytes received so
far" needs.
-/

namespace Machine

variable {σ ι ω ε : Type*} {allowed : σ → ι → Prop} {step : σ → ι → Except ε (σ × ω)}

/-- `Run allowed step s₀ tr s`: from `s₀` the machine consumes and emits what `tr`
    records, in order, and is then in `s`. -/
inductive Run (allowed : σ → ι → Prop) (step : σ → ι → Except ε (σ × ω)) (s₀ : σ) :
    List (ι × ω) → σ → Prop where
  | nil : Run allowed step s₀ [] s₀
  | snoc {tr : List (ι × ω)} {s s' : σ} {i : ι} {o : ω} :
      Run allowed step s₀ tr s → allowed s i → step s i = .ok (s', o) →
      Run allowed step s₀ (tr ++ [(i, o)]) s'

/-- Execute a list of inputs. -/
def exec (step : σ → ι → Except ε (σ × ω)) : σ → List ι → Except ε (σ × List (ι × ω))
  | s, [] => .ok (s, [])
  | s, i :: is =>
    match step s i with
    | .error e => .error e
    | .ok (s', o) =>
      match exec step s' is with
      | .error e => .error e
      | .ok (s'', tr) => .ok (s'', (i, o) :: tr)

/-- An execution takes the step of its first input. -/
theorem exec_cons_eq_ok_iff {s s₂ : σ} {i : ι} {is : List ι} {tr : List (ι × ω)} :
    exec step s (i :: is) = .ok (s₂, tr) ↔ ∃ s₁ o tr', step s i = .ok (s₁, o) ∧
      exec step s₁ is = .ok (s₂, tr') ∧ tr = (i, o) :: tr' := by
  simp only [exec]
  constructor
  · intro h
    split at h
    · cases h
    rename_i s₁ o hstep
    split at h
    · cases h
    rename_i s₂ tr' hexec
    cases h
    exact ⟨s₁, o, tr', hstep, hexec, rfl⟩
  · rintro ⟨s₁, o, tr', hstep, hexec, rfl⟩
    simp only [hstep, hexec]

/-- An execution of two lists of inputs, one after the other. -/
theorem exec_append {s s₁ : σ} {is : List ι} {tr : List (ι × ω)}
    (h : exec step s is = .ok (s₁, tr)) (js : List ι) :
    exec step s (is ++ js) =
      match exec step s₁ js with
      | .error e => .error e
      | .ok (s₂, tr') => .ok (s₂, tr ++ tr') := by
  induction is generalizing s tr with
  | nil =>
    cases h
    cases hjs : exec step s₁ js <;> simp [hjs]
  | cons i is ih =>
    obtain ⟨s', o, tr', hstep, hexec, rfl⟩ := exec_cons_eq_ok_iff.1 h
    simp only [List.cons_append, exec, hstep, ih hexec]
    cases exec step s₁ js <;> rfl

/-- An execution that goes one input further. -/
theorem exec_snoc_eq_ok_iff {s s₁ s₂ : σ} {is : List ι} {i : ι} {tr tr' : List (ι × ω)}
    (h : exec step s is = .ok (s₁, tr)) :
    exec step s (is ++ [i]) = .ok (s₂, tr') ↔
      ∃ o, step s₁ i = .ok (s₂, o) ∧ tr' = tr ++ [(i, o)] := by
  rw [exec_append h]
  constructor
  · intro hexec
    split at hexec
    · cases hexec
    rename_i s₃ tr₃ hlast
    cases hexec
    obtain ⟨s', o, tr'', hstep, hnil, rfl⟩ := exec_cons_eq_ok_iff.1 hlast
    cases hnil
    exact ⟨o, hstep, rfl⟩
  · rintro ⟨o, hstep, rfl⟩
    have hlast : exec step s₁ [i] = .ok (s₂, [(i, o)]) :=
      exec_cons_eq_ok_iff.2 ⟨s₂, o, [], hstep, rfl, rfl⟩
    rw [hlast]

/-- An execution of two lists of inputs executes the first. -/
theorem exec_append_inv {s s₂ : σ} {is js : List ι} {tr : List (ι × ω)}
    (h : exec step s (is ++ js) = .ok (s₂, tr)) : ∃ s₁ tr₁, exec step s is = .ok (s₁, tr₁) := by
  induction is generalizing s tr with
  | nil => exact ⟨s, [], rfl⟩
  | cons i is ih =>
    obtain ⟨s', o, tr', hstep, hexec, rfl⟩ := exec_cons_eq_ok_iff.1 h
    obtain ⟨s₁, tr₁, h₁⟩ := ih hexec
    exact ⟨s₁, _, exec_cons_eq_ok_iff.2 ⟨s', o, tr₁, hstep, h₁, rfl⟩⟩

/-- An execution records the inputs it was given. -/
theorem exec_inputs {s s' : σ} {is : List ι} {tr : List (ι × ω)}
    (h : exec step s is = .ok (s', tr)) : tr.map Prod.fst = is := by
  induction is generalizing s tr with
  | nil =>
    cases h
    rfl
  | cons i is ih =>
    obtain ⟨s₁, o, tr', hstep, hexec, rfl⟩ := exec_cons_eq_ok_iff.1 h
    rw [List.map_cons, ih hexec]

/-- Two lists of inputs that lead to the same state may be exchanged in front of
    any other. -/
theorem exec_exchange {s s₁ s₂ : σ} {is is' js : List ι} {tr tr' u : List (ι × ω)}
    (h : exec step s is = .ok (s₁, tr)) (h' : exec step s is' = .ok (s₁, tr'))
    (hrun : exec step s (is ++ js) = .ok (s₂, u)) :
    ∃ u', exec step s (is' ++ js) = .ok (s₂, u') := by
  rw [exec_append h] at hrun
  rw [exec_append h']
  split at hrun
  · cases hrun
  · obtain ⟨rfl, -⟩ := by simpa using hrun
    exact ⟨_, rfl⟩

/-! ## Following an abstract machine -/

section Follows

variable {τ : Type*} {R : List (ι × ω) → σ → τ → Prop} {next : τ → ι → τ} {good : τ → ι → Prop}
  {tr₀ : List (ι × ω)} {s : σ} {t : τ} {is : List ι}

/-- What every step preserves holds at the end of an execution. -/
theorem exec_preserves (preserved : ∀ tr s t i s' o, R tr s t → step s i = .ok (s', o) →
      R (tr ++ [(i, o)]) s' (next t i))
    (h : R tr₀ s t) {s' : σ} {tr : List (ι × ω)} (hexec : exec step s is = .ok (s', tr)) :
    R (tr₀ ++ tr) s' (is.foldl next t) := by
  induction is generalizing tr₀ s t tr with
  | nil =>
    cases hexec
    simpa using h
  | cons i is ih =>
    obtain ⟨s₁, o, tr', hstep, hrest, rfl⟩ := exec_cons_eq_ok_iff.1 hexec
    have hlast := ih (preserved tr₀ s t i s₁ o h hstep) hrest
    rwa [List.append_assoc, List.singleton_append] at hlast

variable (follows : ∀ tr s t i, R tr s t → good t i →
  ∃ s' o, step s i = .ok (s', o) ∧ R (tr ++ [(i, o)]) s' (next t i))
include follows

/-- Inputs that are good when their turn comes are all consumed. -/
theorem exec_follows (h : R tr₀ s t)
    (hgood : ∀ pre i post, is = pre ++ i :: post → good (pre.foldl next t) i) :
    ∃ s' tr, exec step s is = .ok (s', tr) ∧ R (tr₀ ++ tr) s' (is.foldl next t) := by
  induction is generalizing tr₀ s t with
  | nil => exact ⟨s, [], rfl, by simpa using h⟩
  | cons i is ih =>
    obtain ⟨s₁, o, hstep, hR⟩ := follows tr₀ s t i h (hgood [] i is rfl)
    obtain ⟨s', tr, hexec, hlast⟩ := ih hR fun pre j post hsplit =>
      hgood (i :: pre) j post (by rw [hsplit, List.cons_append])
    rw [List.append_assoc, List.singleton_append] at hlast
    exact ⟨s', _, exec_cons_eq_ok_iff.2 ⟨s₁, o, tr, hstep, hexec, rfl⟩, hlast⟩

variable (tr₀ is)

/-- The simulation rule: a machine that follows an abstract one on the inputs that
    are good for it, and spoils a property of its history on the first that is not,
    has the property all along just if every input is good when its turn comes. -/
theorem exec_always_iff {P : List (ι × ω) → σ → Prop} (holds : ∀ tr s t, R tr s t → P tr s)
    (spoils : ∀ tr s t i s' o, R tr s t → ¬good t i → step s i = .ok (s', o) →
      ¬P (tr ++ [(i, o)]) s') (h : R tr₀ s t) :
    (∀ pre post, is = pre ++ post → ∃ s' tr, exec step s pre = .ok (s', tr) ∧ P (tr₀ ++ tr) s') ↔
      ∀ pre i post, is = pre ++ i :: post → good (pre.foldl next t) i := by
  constructor
  · intro halways
    -- while the machine follows, the next input has to be good
    have hnext : ∀ pre i post s₁ tr, is = pre ++ i :: post → exec step s pre = .ok (s₁, tr) →
        R (tr₀ ++ tr) s₁ (pre.foldl next t) → good (pre.foldl next t) i := by
      intro pre i post s₁ tr hsplit hexec hR
      by_contra hbad
      obtain ⟨s₂, tr', hexec', hP⟩ := halways (pre ++ [i]) post (by rw [hsplit, List.append_cons])
      obtain ⟨o, hstep, rfl⟩ := (exec_snoc_eq_ok_iff hexec).1 hexec'
      rw [← List.append_assoc] at hP
      exact spoils _ s₁ _ i s₂ o hR hbad hstep hP
    have hfollowed : ∀ pre post, is = pre ++ post → ∃ s₁ tr,
        exec step s pre = .ok (s₁, tr) ∧ R (tr₀ ++ tr) s₁ (pre.foldl next t) := by
      intro pre
      induction pre using List.reverseRecOn with
      | nil => exact fun _ _ => ⟨s, [], rfl, by simpa using h⟩
      | append_singleton pre i ih =>
        intro post hsplit
        rw [← List.append_cons] at hsplit
        obtain ⟨s₁, tr, hexec, hR⟩ := ih (i :: post) hsplit
        obtain ⟨s₂, o, hstep, hR'⟩ := follows _ s₁ _ i hR (hnext pre i post s₁ tr hsplit hexec hR)
        rw [List.append_assoc] at hR'
        refine ⟨s₂, _, (exec_snoc_eq_ok_iff hexec).2 ⟨o, hstep, rfl⟩, ?_⟩
        rwa [List.foldl_append]
    intro pre i post hsplit
    obtain ⟨s₁, tr, hexec, hR⟩ := hfollowed pre (i :: post) hsplit
    exact hnext pre i post s₁ tr hsplit hexec hR
  · intro hgood pre post hsplit
    have hgood' : ∀ pre' i post', pre = pre' ++ i :: post' → good (pre'.foldl next t) i := by
      rintro pre' i post' rfl
      exact hgood pre' i (post' ++ post) (by rw [hsplit, List.append_assoc, List.cons_append])
    obtain ⟨s', tr, hexec, hR⟩ := exec_follows follows h hgood'
    exact ⟨s', tr, hexec, holds _ s' _ hR⟩

end Follows

/-! ## Runs -/

/-- Execute a list of inputs, provided that each is allowed and none fails. -/
def simulate (allowed : σ → ι → Prop) [∀ s i, Decidable (allowed s i)]
    (step : σ → ι → Except ε (σ × ω)) : σ → List ι → Option (σ × List (ι × ω))
  | s, [] => some (s, [])
  | s, i :: is =>
    if allowed s i then
      match step s i with
      | .error _ => none
      | .ok (s', o) =>
        match simulate allowed step s' is with
        | none => none
        | some (s'', tr) => some (s'', (i, o) :: tr)
    else none

namespace Run

/-- The invariant rule: what holds of the empty history and survives every step
    holds of every run. -/
theorem induct {s₀ : σ} {P : List (ι × ω) → σ → Prop} (init : P [] s₀)
    (preserved : ∀ tr s i o s', Run allowed step s₀ tr s → P tr s → allowed s i →
      step s i = .ok (s', o) → P (tr ++ [(i, o)]) s')
    {tr : List (ι × ω)} {s : σ} (h : Run allowed step s₀ tr s) : P tr s := by
  induction h with
  | nil => exact init
  | snoc hrun hallowed hstep ih => exact preserved _ _ _ _ _ hrun ih hallowed hstep

theorem append {s₀ s₁ s₂ : σ} {tr tr' : List (ι × ω)} (h : Run allowed step s₀ tr s₁)
    (h' : Run allowed step s₁ tr' s₂) : Run allowed step s₀ (tr ++ tr') s₂ := by
  induction h' with
  | nil => simpa using h
  | snoc _ hallowed hstep ih =>
    rw [← List.append_assoc]
    exact .snoc ih hallowed hstep

theorem single {s s' : σ} {i : ι} {o : ω} (hallowed : allowed s i)
    (hstep : step s i = .ok (s', o)) : Run allowed step s [(i, o)] s' := by
  simpa using Run.snoc .nil hallowed hstep

/-- The last step of a run that is not empty. -/
theorem snoc_inv {s₀ s : σ} {tr : List (ι × ω)} {i : ι} {o : ω}
    (h : Run allowed step s₀ (tr ++ [(i, o)]) s) :
    ∃ s', Run allowed step s₀ tr s' ∧ allowed s' i ∧ step s' i = .ok (s, o) := by
  generalize htr : tr ++ [(i, o)] = tr' at h
  cases h with
  | nil => simp at htr
  | snoc hrun hallowed hstep =>
    obtain ⟨rfl, hio⟩ := List.append_inj' htr rfl
    obtain ⟨rfl, rfl⟩ := by simpa using hio
    exact ⟨_, hrun, hallowed, hstep⟩

/-- A run passes through a state at every cut of its history. -/
theorem split {s₀ s : σ} {tr tr' : List (ι × ω)} (h : Run allowed step s₀ (tr ++ tr') s) :
    ∃ s', Run allowed step s₀ tr s' ∧ Run allowed step s' tr' s := by
  induction tr' using List.reverseRecOn generalizing s with
  | nil => exact ⟨s, by simpa using h, .nil⟩
  | append_singleton tr' io ih =>
    obtain ⟨i, o⟩ := io
    rw [← List.append_assoc] at h
    obtain ⟨s₁, hrun, hallowed, hstep⟩ := h.snoc_inv
    obtain ⟨s', h₁, h₂⟩ := ih hrun
    exact ⟨s', h₁, .snoc h₂ hallowed hstep⟩

/-- A run takes each of the steps that its history records. -/
theorem cut {s₀ s : σ} {tr₁ tr₂ : List (ι × ω)} {i : ι} {o : ω}
    (h : Run allowed step s₀ (tr₁ ++ (i, o) :: tr₂) s) :
    ∃ s₁ s₂, Run allowed step s₀ tr₁ s₁ ∧ allowed s₁ i ∧ step s₁ i = .ok (s₂, o) := by
  rw [List.append_cons] at h
  obtain ⟨s₂, h₂, -⟩ := h.split
  obtain ⟨s₁, h₁, hallowed, hstep⟩ := h₂.snoc_inv
  exact ⟨s₁, s₂, h₁, hallowed, hstep⟩

/-- What holds of a step just if a condition does holds of all steps of a run just if
    the condition holds of all of them. -/
theorem forall_iff {s₀ s : σ} {tr : List (ι × ω)} {P Q : List (ι × ω) → ι × ω → Prop}
    (h : Run allowed step s₀ tr s)
    (hstep : ∀ tr₁ s₁ i o s₂, Run allowed step s₀ tr₁ s₁ → allowed s₁ i →
      step s₁ i = .ok (s₂, o) → (P tr₁ (i, o) ↔ Q tr₁ (i, o))) :
    (∀ tr₁ e tr₂, tr = tr₁ ++ e :: tr₂ → P tr₁ e) ↔
      ∀ tr₁ e tr₂, tr = tr₁ ++ e :: tr₂ → Q tr₁ e := by
  have hcut : ∀ tr₁ e tr₂, tr = tr₁ ++ e :: tr₂ → (P tr₁ e ↔ Q tr₁ e) := by
    rintro tr₁ ⟨i, o⟩ tr₂ rfl
    obtain ⟨s₁, s₂, h₁, hallowed, hok⟩ := h.cut
    exact hstep tr₁ s₁ i o s₂ h₁ hallowed hok
  constructor
  · exact fun hall tr₁ e tr₂ htr => (hcut tr₁ e tr₂ htr).1 (hall tr₁ e tr₂ htr)
  · exact fun hall tr₁ e tr₂ htr => (hcut tr₁ e tr₂ htr).2 (hall tr₁ e tr₂ htr)

/-- The history determines the state. -/
theorem unique {s₀ s s' : σ} {tr : List (ι × ω)} (h : Run allowed step s₀ tr s)
    (h' : Run allowed step s₀ tr s') : s = s' := by
  induction h generalizing s' with
  | nil =>
    generalize htr : ([] : List (ι × ω)) = tr' at h'
    cases h' with
    | nil => rfl
    | snoc => simp at htr
  | snoc _ _ hstep ih =>
    obtain ⟨s₁, hrun₁, -, hstep₁⟩ := h'.snoc_inv
    rw [ih hrun₁, hstep₁] at hstep
    cases hstep
    rfl

/-- A property of steps and of the states that they are taken in, and a condition for it:
    along a run it is enough to compare them step by step. -/
theorem forall_steps_iff {s₀ s : σ} {tr : List (ι × ω)} {P Q : σ → ι × ω → Prop}
    (h : Run allowed step s₀ tr s)
    (hstep : ∀ tr₁ s₁ i o s₂, Run allowed step s₀ tr₁ s₁ → allowed s₁ i →
      step s₁ i = .ok (s₂, o) → (P s₁ (i, o) ↔ Q s₁ (i, o))) :
    (∀ tr₁ e tr₂ s₁, tr = tr₁ ++ e :: tr₂ → Run allowed step s₀ tr₁ s₁ → P s₁ e) ↔
      ∀ tr₁ e tr₂ s₁, tr = tr₁ ++ e :: tr₂ → Run allowed step s₀ tr₁ s₁ → Q s₁ e := by
  have hcut : ∀ tr₁ e tr₂ s₁, tr = tr₁ ++ e :: tr₂ → Run allowed step s₀ tr₁ s₁ →
      (P s₁ e ↔ Q s₁ e) := by
    rintro tr₁ ⟨i, o⟩ tr₂ s₁ rfl h₁
    obtain ⟨s₁', s₂, h₁', hallowed, hok⟩ := h.cut
    obtain rfl := h₁.unique h₁'
    exact hstep tr₁ s₁ i o s₂ h₁ hallowed hok
  constructor
  · exact fun hall tr₁ e tr₂ s₁ htr h₁ => (hcut tr₁ e tr₂ s₁ htr h₁).1 (hall tr₁ e tr₂ s₁ htr h₁)
  · exact fun hall tr₁ e tr₂ s₁ htr h₁ => (hcut tr₁ e tr₂ s₁ htr h₁).2 (hall tr₁ e tr₂ s₁ htr h₁)

/-- A simulation is a run. -/
theorem of_simulate [∀ s i, Decidable (allowed s i)] {s s' : σ} {is : List ι}
    {tr : List (ι × ω)} (h : simulate allowed step s is = some (s', tr)) :
    Run allowed step s tr s' := by
  induction is generalizing s tr with
  | nil =>
    obtain ⟨rfl, rfl⟩ := by simpa [simulate] using h
    exact .nil
  | cons i is ih =>
    simp only [simulate] at h
    split at h
    · rename_i hallowed
      split at h
      · cases h
      · rename_i s₁ o hstep
        split at h
        · cases h
        · rename_i s₂ tr₂ hsim
          obtain ⟨rfl, rfl⟩ := by simpa using h
          simpa using (single hallowed hstep).append (ih hsim)
    · cases h

/-- A run with a property that a simulation shows. -/
theorem exists_of_simulate [∀ s i, Decidable (allowed s i)] {s : σ} {is : List ι}
    {p : σ × List (ι × ω) → Bool} (h : (simulate allowed step s is).any p = true) :
    ∃ tr s', Run allowed step s tr s' ∧ p (s', tr) = true := by
  cases hsim : simulate allowed step s is with
  | none => simp [hsim] at h
  | some r => exact ⟨r.2, r.1, of_simulate hsim, by simpa [hsim] using h⟩

/-- If the steps that keep a property are those that meet a condition, then the
    property holds all along a run just if all of its steps meet the condition. -/
theorem always_iff {s₀ s : σ} {P : List (ι × ω) → σ → Prop}
    {Q : List (ι × ω) → σ → ι × ω → Prop} {tr : List (ι × ω)} (h : Run allowed step s₀ tr s)
    (init : P [] s₀)
    (preserved : ∀ tr₁ i o tr₂ s₁ s₂, tr = tr₁ ++ (i, o) :: tr₂ → Run allowed step s₀ tr₁ s₁ →
      P tr₁ s₁ → allowed s₁ i → step s₁ i = .ok (s₂, o) →
      (P (tr₁ ++ [(i, o)]) s₂ ↔ Q tr₁ s₁ (i, o))) :
    (∀ tr₁ tr₂ s₁, tr = tr₁ ++ tr₂ → Run allowed step s₀ tr₁ s₁ → P tr₁ s₁) ↔
      ∀ tr₁ e tr₂ s₁, tr = tr₁ ++ e :: tr₂ → Run allowed step s₀ tr₁ s₁ → Q tr₁ s₁ e := by
  constructor
  · intro halways tr₁ e tr₂ s₁ htr hrun₁
    obtain ⟨i, o⟩ := e
    have htr' : tr = (tr₁ ++ [(i, o)]) ++ tr₂ := by rw [htr]; simp
    rw [htr'] at h
    obtain ⟨s₂, hrun₂, -⟩ := h.split
    obtain ⟨s₁', hrun₁', hallowed, hstep⟩ := hrun₂.snoc_inv
    obtain rfl := hrun₁.unique hrun₁'
    have hP := halways tr₁ ((i, o) :: tr₂) s₁ htr hrun₁
    exact (preserved tr₁ i o tr₂ s₁ s₂ htr hrun₁ hP hallowed hstep).1
      (halways _ tr₂ s₂ htr' hrun₂)
  · intro hsteps tr₁ tr₂ s₁ htr hrun₁
    induction hrun₁ generalizing tr₂ with
    | nil => exact init
    | @snoc tr₁ s₁ s₂ i o hrun₁ hallowed hstep ih =>
      have htr' : tr = tr₁ ++ (i, o) :: tr₂ := by rw [htr]; simp
      have hP := ih ((i, o) :: tr₂) htr'
      exact (preserved tr₁ i o tr₂ s₁ s₂ htr' hrun₁ hP hallowed hstep).2
        (hsteps tr₁ (i, o) tr₂ s₁ htr' hrun₁)

end Run

end Machine
