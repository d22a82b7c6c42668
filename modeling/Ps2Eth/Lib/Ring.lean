import Mathlib.Data.List.Range
import Mathlib.Data.List.Nodup
import Mathlib.Data.Nat.ModEq
import Mathlib.Logic.Function.Basic

/-!
# Windows of a ring of cells

A ring keeps its live cells in consecutive slots modulo its size: the window
starts at one index and holds a count of cells. Writing the slot just past the
window and counting it appends a cell; moving the start past the first slot
removes one. As long as the window is not full the slot just past it is none of
its own slots.

Indices may grow beyond the size, or wrap at any multiple of it: a window
depends on its start only modulo the size.
-/

namespace Ring

universe u v

variable {β : Type u} {γ : Type v}

/-- The cells of `count` consecutive slots, the first of them at `start`. -/
def window (cells : Nat → β) (size start count : Nat) : List β :=
  (List.range count).map fun offset => cells ((start + offset) % size)

/-- A window of no cells is empty. -/
@[simp] theorem window_zero (cells : Nat → β) (size start : Nat) :
    window cells size start 0 = [] := rfl

/-- Starts that agree modulo the size have the same windows. -/
theorem window_congr {size start start' : Nat} (same : start % size = start' % size)
    (cells : Nat → β) (count : Nat) :
    window cells size start count = window cells size start' count := by
  have slots : ∀ offset, (start + offset) % size = (start' + offset) % size := fun offset => by
    rw [Nat.add_mod start, Nat.add_mod start', same]
  simp only [window, slots]

/-- The first cell of a window and the window after it. -/
theorem window_pop (cells : Nat → β) (size start count : Nat) :
    window cells size start (count + 1) =
      cells (start % size) :: window cells size (start + 1) count := by
  simp only [window, List.range_succ_eq_map, List.map_cons, List.map_map, Nat.add_zero]
  congr 1
  apply List.map_congr_left
  intro offset _
  simp only [Function.comp_apply, Nat.succ_eq_add_one, Nat.add_assoc, Nat.add_comm 1]

/-- Offsets below the size name different slots. -/
theorem slots_ne {size start first second : Nat} (distinct : first ≠ second)
    (firstInside : first < size) (secondInside : second < size) :
    (start + first) % size ≠ (start + second) % size := by
  intro same
  have cancelled : first % size = second % size := Nat.ModEq.add_left_cancel' start same
  rw [Nat.mod_eq_of_lt firstInside, Nat.mod_eq_of_lt secondInside] at cancelled
  exact distinct cancelled

/-- Writing a slot outside the window leaves the window as it was. -/
theorem window_update_outside (cells : Nat → β) {size start count offset : Nat} (value : β)
    (outside : count ≤ offset) (inside : offset < size) :
    window (Function.update cells ((start + offset) % size) value) size start count =
      window cells size start count := by
  apply List.map_congr_left
  intro earlier member
  have before : earlier < count := List.mem_range.mp member
  have other : (start + earlier) % size ≠ (start + offset) % size :=
    slots_ne (by omega) (by omega) inside
  exact Function.update_of_ne other _ _

/-- Writing the slot just past a window that is not full appends the cell. -/
theorem window_push (cells : Nat → β) {size start count : Nat} (value : β) (room : count < size) :
    window (Function.update cells ((start + count) % size) value) size start (count + 1) =
      window cells size start count ++ [value] := by
  have kept := @window_update_outside _ cells _ start _ _ value (Nat.le_refl count) room
  simp only [window, List.range_succ, List.map_append, List.map_cons, List.map_nil,
    Function.update_self] at kept ⊢
  rw [kept]

/-- Reading one field of every cell gives the window of that field. -/
theorem map_window (field : β → γ) (cells : Nat → β) (size start count : Nat) :
    (window cells size start count).map field =
      window (fun index => field (cells index)) size start count := by
  simp [window]

/-- An update that keeps a field keeps every window of that field. -/
theorem map_window_update (field : β → γ) (cells : Nat → β) (size start count index : Nat)
    (value : β) (same : field value = field (cells index)) :
    (window (Function.update cells index value) size start count).map field =
      (window cells size start count).map field := by
  simp only [map_window]
  congr 1
  funext tested
  by_cases here : tested = index
  · subst tested
    rw [Function.update_self, same]
  · rw [Function.update_of_ne here]

/-- A shorter window from the same start is a prefix. -/
theorem window_take (cells : Nat → β) (size start : Nat) {shorter count : Nat}
    (fewer : shorter ≤ count) :
    (window cells size start count).take shorter = window cells size start shorter := by
  rw [window, ← List.map_take, List.take_range, Nat.min_eq_left fewer, window]

/-- The cells after those of a window have been marked, and no others. -/
def marked (mark : β → β) (cells : Nat → β) (size start count : Nat) : Nat → β := fun slot =>
  if ∃ offset < count, slot = (start + offset) % size then mark (cells slot) else cells slot

/-- Without cells to mark none is marked. -/
@[simp] theorem marked_zero (mark : β → β) (cells : Nat → β) (size start : Nat) :
    marked mark cells size start 0 = cells := by
  funext slot
  simp [marked]

/-- Once a whole ring is marked the next slot is marked too. -/
theorem marked_full (mark : β → β) (cells : Nat → β) {size start : Nat} (some : 0 < size) :
    marked mark cells size start size ((start + size) % size) =
      mark (cells ((start + size) % size)) := by
  rw [marked, if_pos ⟨0, some, by simp⟩]

/-- A cell is in the window exactly when it stands at one of its offsets. -/
theorem mem_window {cells : Nat → β} {size start count : Nat} {value : β} :
    value ∈ window cells size start count ↔
      ∃ offset < count, cells ((start + offset) % size) = value := by
  simp [window]

end Ring
