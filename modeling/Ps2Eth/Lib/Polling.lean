import Mathlib.Data.List.Basic

/-!
# Polling loops

A polling loop reads a device until a read passes a test, for a bounded number
of turns. Reading changes the state of the device. An invariant that every
failed read keeps holds before the read that passed, and after the last turn if
none did.
-/

namespace Polling

universe u v

variable {σ : Type u} {β : Type v}

/-- Read until the test passes, at most `turns` times. -/
def poll (read : σ → β × σ) (test : β → Bool) : Nat → σ → Option β × σ
  | 0, state => (none, state)
  | turns + 1, state =>
      if test (read state).1 then (some (read state).1, (read state).2)
      else poll read test turns (read state).2

variable {read : σ → β × σ} {test : β → Bool}

/-- The read that passed was made in a state that meets the invariant. -/
theorem poll_found (Inv : σ → Prop) (kept : ∀ state, Inv state → Inv (read state).2)
    {turns : Nat} {state : σ} {value : β} {final : σ} (start : Inv state)
    (found : poll read test turns state = (some value, final)) :
    test value = true ∧ ∃ middle, Inv middle ∧ read middle = (value, final) := by
  induction turns generalizing state with
  | zero => simp [poll] at found
  | succ turns inductionHypothesis =>
    rw [poll] at found
    by_cases passes : test (read state).1 = true
    · rw [if_pos passes] at found
      obtain ⟨same, rfl⟩ := Prod.mk.inj found
      obtain rfl := Option.some.inj same
      exact ⟨passes, state, start, rfl⟩
    · rw [if_neg passes] at found
      exact inductionHypothesis (kept state start) found

/-- When no read passes, the invariant counts all the turns. -/
theorem poll_exhausted (Inv : Nat → σ → Prop)
    (kept : ∀ turn state, Inv turn state → test (read state).1 = false → Inv (turn + 1) (read state).2)
    {turns turn : Nat} {state final : σ} (start : Inv turn state)
    (exhausted : poll read test turns state = (none, final)) : Inv (turn + turns) final := by
  induction turns generalizing turn state with
  | zero =>
    obtain ⟨-, rfl⟩ := Prod.mk.inj exhausted
    exact start
  | succ turns inductionHypothesis =>
    rw [poll] at exhausted
    by_cases passes : test (read state).1 = true
    · simp [passes] at exhausted
    · rw [if_neg passes] at exhausted
      have later := inductionHypothesis (kept turn state start (by simpa using passes)) exhausted
      rwa [Nat.add_assoc, Nat.add_comm 1] at later

/-- Whatever the outcome, an invariant that every read keeps holds at the end. -/
theorem poll_kept (Inv : σ → Prop) (kept : ∀ state, Inv state → Inv (read state).2)
    (turns : Nat) {state : σ} (start : Inv state) : Inv (poll read test turns state).2 := by
  induction turns generalizing state with
  | zero => exact start
  | succ turns inductionHypothesis =>
    rw [poll]
    by_cases passes : test (read state).1 = true
    · rw [if_pos passes]
      exact kept state start
    · rw [if_neg passes]
      exact inductionHypothesis (kept state start)

/-- Reading one answer after the other, some read passes exactly when one of the first
answers does. -/
theorem poll_stream (answer : Nat → β) (turns position : Nat) :
    (poll (fun turn => (answer turn, turn + 1)) test turns position).1.isSome = true ↔
      ∃ turn < turns, test (answer (position + turn)) = true := by
  induction turns generalizing position with
  | zero => simp [poll]
  | succ turns inductionHypothesis =>
    rw [poll]
    by_cases passes : test (answer position) = true
    · rw [if_pos passes]
      exact iff_of_true rfl ⟨0, by omega, passes⟩
    · rw [if_neg passes, inductionHypothesis]
      constructor
      · rintro ⟨turn, before, later⟩
        exact ⟨turn + 1, by omega, by rwa [← Nat.add_assoc, Nat.add_right_comm]⟩
      · rintro ⟨turn, before, later⟩
        cases turn with
        | zero => exact absurd later passes
        | succ turn => exact ⟨turn, by omega, by rwa [Nat.add_right_comm, Nat.add_assoc]⟩

end Polling
