import Ps2Eth.Lib.Runs

/-!
# Loops that put something out every turn

A loop is a turn function: in a state, a turn either puts something out and
leaves a next state, or the loop ends. Turns are numbered, so that the answers of
an environment can be told by the number of the turn that asks for them. The log
keeps what each turn put out and the state it left.

An invariant that counts the turns holds before each of them, and at the end
with the number of turns taken. Where each turn is a step of a system, the loop is a
run of it.
-/

namespace Loops

universe u v

variable {σ : Type u} {ω : Type v}

/-- The log of a loop that takes at most `bound` turns. -/
def turns (turn : Nat → σ → Option (ω × σ)) : Nat → Nat → σ → List (ω × σ)
  | 0, _, _ => []
  | bound + 1, number, state =>
      match turn number state with
      | none => []
      | some result => result :: turns turn bound (number + 1) result.2

/-- The state after the last turn of a log. -/
def last (state : σ) (log : List (ω × σ)) : σ := log.foldl (fun _ entry => entry.2) state

variable {turn : Nat → σ → Option (ω × σ)}

/-- A loop whose turns are steps of a system extends a run of it, and what is observed
of these steps is what the turns put out. -/
theorem run_append_turns {π : Type u} {α ε : Type v} {step : π → α → Option π} {Start : π → Prop}
    (place : σ → π) (action : Nat → α) (observe : π → α → List ε) (shown : ω → List ε)
    (does : ∀ number state result, turn number state = some result →
      step (place state) (action number) = some (place result.2) ∧
        observe (place state) (action number) = shown result.1)
    {steps : List (π × α)} (bound number : Nat) (state : σ)
    (run : Runs.Run step Start steps (place state)) :
    ∃ more, Runs.Run step Start (steps ++ more) (place (last state (turns turn bound number state))) ∧
      Runs.observed observe more =
        (turns turn bound number state).flatMap fun entry => shown entry.1 := by
  induction bound generalizing number state steps with
  | zero => exact ⟨[], by simpa [turns, last] using run, by simp [turns]⟩
  | succ bound inductionHypothesis =>
    cases taken : turn number state with
    | none => exact ⟨[], by simpa [turns, taken, last] using run, by simp [turns, taken]⟩
    | some result =>
      obtain ⟨moved, seen⟩ := does number state result taken
      obtain ⟨more, reached, observed⟩ :=
        inductionHypothesis (number + 1) result.2 (Runs.Run.snoc run moved)
      refine ⟨(place state, action number) :: more, ?_, ?_⟩
      · simpa [turns, taken, last] using reached
      · have first : Runs.observed observe ((place state, action number) :: more) =
            observe (place state) (action number) ++ Runs.observed observe more := by
          simp [Runs.observed]
        rw [first, seen, observed]
        simp [turns, taken]

end Loops
