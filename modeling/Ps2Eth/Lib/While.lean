import Mathlib.Logic.Basic

/-!
# Loops that may not end

A loop is a step that either leaves a next state or ends with a value. It returns a
value if some number of steps ends with it. A state whose step leads back to it never
returns.
-/

namespace While

universe u v

variable {σ : Type u} {ρ : Type v}

/-- At most `bound` steps of a loop. -/
def steps (step : σ → σ ⊕ ρ) : Nat → σ → Option ρ
  | 0, _ => none
  | bound + 1, state =>
    match step state with
    | .inl next => steps step bound next
    | .inr value => some value

/-- The loop ends with a value. -/
def Returns (step : σ → σ ⊕ ρ) (state : σ) (value : ρ) : Prop :=
  ∃ bound, steps step bound state = some value

variable {step : σ → σ ⊕ ρ} {state next : σ} {value : ρ}

/-- A loop that is done returns its value and no other. -/
theorem returns_done (done : step state = .inr value) (result : ρ) :
    Returns step state result ↔ result = value := by
  constructor
  · rintro ⟨bound, returned⟩
    cases bound with
    | zero => simp [steps] at returned
    | succ bound =>
      simp only [steps, done, Option.some.injEq] at returned
      exact returned.symm
  · rintro rfl
    exact ⟨1, by simp only [steps, done]⟩

/-- A loop that goes on returns what it returns from its next state. -/
theorem returns_next (more : step state = .inl next) (result : ρ) :
    Returns step state result ↔ Returns step next result := by
  constructor
  · rintro ⟨bound, returned⟩
    cases bound with
    | zero => simp [steps] at returned
    | succ bound =>
      simp only [steps, more] at returned
      exact ⟨bound, returned⟩
  · rintro ⟨bound, returned⟩
    refine ⟨bound + 1, ?_⟩
    simp only [steps, more, returned]

/-- A state that a step leads back to never returns. -/
theorem not_returns_stuck (stuck : step state = .inl state) (result : ρ) :
    ¬ Returns step state result := by
  rintro ⟨bound, returned⟩
  induction bound with
  | zero => simp [steps] at returned
  | succ bound inductionHypothesis =>
    simp only [steps, stuck] at returned
    exact inductionHypothesis returned

end While
