import Mathlib.Data.List.Induction
import Ps2Eth.Lib.Ring

/-!
# Circular memory behind a data port

A data port owns a circular memory and a write pointer. Each value pushed goes
to the cell under the pointer, which then advances modulo the capacity. A
segment of the memory is a start and a size, taken modulo the capacity; its
contents are a window of the ring of cells.

Segments laid one behind the other whose sizes sum to at most the capacity do
not meet, so a push into the remaining room leaves every laid segment as it was.
-/

namespace DataPort

universe u

variable {β : Type u}

/-- A circular memory with its write pointer. -/
structure Port (β : Type u) where
  cells : Nat → β
  pointer : Nat

/-- Store one value under the pointer and advance the pointer. -/
def Port.put (capacity : Nat) (port : Port β) (value : β) : Port β where
  cells := Function.update port.cells port.pointer value
  pointer := (port.pointer + 1) % capacity

/-- Store values one after the other. -/
def Port.push (capacity : Nat) (port : Port β) (values : List β) : Port β :=
  values.foldl (Port.put capacity) port

/-- Without values the port stays as it was. -/
@[simp] theorem push_nil (capacity : Nat) (port : Port β) : port.push capacity [] = port := rfl

/-- Two bursts written one after the other are one burst. -/
theorem push_append (capacity : Nat) (port : Port β) (first second : List β) :
    port.push capacity (first ++ second) = (port.push capacity first).push capacity second := by
  simp [Port.push]

/-- The last value of a burst is put behind the others. -/
theorem push_snoc (capacity : Nat) (port : Port β) (values : List β) (value : β) :
    port.push capacity (values ++ [value]) = (port.push capacity values).put capacity value := by
  simp [Port.push]

/-- The pointer advances by the number of values, modulo the capacity. -/
theorem push_pointer {capacity : Nat} (port : Port β) (values : List β)
    (inside : port.pointer < capacity) :
    (port.push capacity values).pointer = (port.pointer + values.length) % capacity := by
  induction values using List.reverseRecOn with
  | nil => simp [Nat.mod_eq_of_lt inside]
  | append_singleton values value inductionHypothesis =>
    rw [push_snoc, Port.put, inductionHypothesis, Nat.mod_add_mod, List.length_append,
      List.length_singleton, Nat.add_assoc]

/-- Read `count` values from under the pointer into a buffer from `offset` on. The
buffer tells which of its cells have been written. -/
def readInto (capacity : Nat) (transfer : Port β × (Nat → Option β)) (offset count : Nat) :
    Port β × (Nat → Option β) :=
  ({ transfer.1 with pointer := (transfer.1.pointer + count) % capacity },
    fun index =>
      if offset ≤ index ∧ index < offset + count then
        some (transfer.1.cells ((transfer.1.pointer + (index - offset)) % capacity))
      else transfer.2 index)

/-- A read of no cells leaves a port whose pointer is in range as it was. -/
theorem readInto_zero {capacity : Nat} {transfer : Port β × (Nat → Option β)} (offset : Nat)
    (inside : transfer.1.pointer < capacity) : readInto capacity transfer offset 0 = transfer := by
  have nothing (index : Nat) : ¬ (offset ≤ index ∧ index < offset) := by omega
  simp [readInto, Nat.mod_eq_of_lt inside, nothing]

/-- Reading in two parts reads the whole. -/
theorem readInto_append (capacity : Nat) (transfer : Port β × (Nat → Option β))
    (offset first second : Nat) :
    readInto capacity (readInto capacity transfer offset first) (offset + first) second =
      readInto capacity transfer offset (first + second) := by
  refine Prod.ext ?_ ?_
  · simp [readInto, Nat.add_assoc]
  · funext index
    simp only [readInto, Nat.mod_add_mod]
    by_cases later : offset + first ≤ index
    · have slot : transfer.1.pointer + first + (index - (offset + first)) =
          transfer.1.pointer + (index - offset) := by omega
      by_cases within : index < offset + first + second
      · rw [if_pos ⟨later, within⟩, if_pos (by omega), slot]
      · rw [if_neg (by omega), if_neg (by omega), if_neg (by omega)]
    · rw [if_neg (by omega)]
      by_cases early : offset ≤ index
      · rw [if_pos (by omega), if_pos (by omega)]
      · rw [if_neg (by omega), if_neg (by omega)]

/-- Reading chunk by chunk reads the whole. -/
theorem readInto_chunks {capacity : Nat} {transfer : Port β × (Nat → Option β)} (size count : Nat)
    (inside : transfer.1.pointer < capacity) :
    (List.range count).foldl
        (fun transfer chunk => readInto capacity transfer (size * chunk) size) transfer =
      readInto capacity transfer 0 (size * count) := by
  induction count with
  | zero => exact (readInto_zero 0 inside).symm
  | succ count inductionHypothesis =>
    have joined := readInto_append capacity transfer 0 (size * count) size
    rw [Nat.zero_add] at joined
    rw [List.range_succ, List.foldl_append, inductionHypothesis, List.foldl_cons, List.foldl_nil,
      joined, Nat.mul_succ]

/-- An address lies in the segment of the given start and size. -/
def Covers (capacity start size address : Nat) : Prop :=
  ∃ offset < size, address = (start + offset) % capacity

/-- Two segments have no address in common. -/
def Apart (capacity : Nat) (left right : Nat × Nat) : Prop :=
  ∀ address, Covers capacity left.1 left.2 address → ¬ Covers capacity right.1 right.2 address

/-- Only the remainder of a start decides which addresses its segment covers. -/
theorem covers_congr {capacity start start' size address : Nat}
    (same : start % capacity = start' % capacity) :
    Covers capacity start size address ↔ Covers capacity start' size address := by
  have slots : ∀ offset, (start + offset) % capacity = (start' + offset) % capacity := fun offset => by
    rw [Nat.add_mod start, Nat.add_mod start', same]
  simp only [Covers, slots]

/-- A segment reads the same from memories that agree on its addresses. -/
theorem window_eq {capacity start size : Nat} {cells cells' : Nat → β}
    (agree : ∀ address, Covers capacity start size address → cells address = cells' address) :
    Ring.window cells capacity start size = Ring.window cells' capacity start size := by
  apply List.map_congr_left
  intro offset member
  exact agree _ ⟨offset, List.mem_range.mp member, rfl⟩

/-- A push changes no cell outside the segment it fills. -/
theorem push_outside {capacity address : Nat} (port : Port β) (values : List β)
    (inside : port.pointer < capacity)
    (outside : ¬ Covers capacity port.pointer values.length address) :
    (port.push capacity values).cells address = port.cells address := by
  induction values using List.reverseRecOn with
  | nil => rfl
  | append_singleton values value inductionHypothesis =>
    have earlier : ¬ Covers capacity port.pointer values.length address := by
      rintro ⟨offset, before, same⟩
      exact outside ⟨offset, by simp only [List.length_append]; omega, same⟩
    have other : address ≠ (port.push capacity values).pointer := by
      intro same
      rw [push_pointer port values inside] at same
      exact outside ⟨values.length, by simp, same⟩
    rw [push_snoc]
    exact (Function.update_of_ne other _ _).trans (inductionHypothesis earlier)

/-- A push no longer than the capacity fills its segment with its values. -/
theorem push_window {capacity : Nat} (port : Port β) (values : List β)
    (inside : port.pointer < capacity) (fits : values.length ≤ capacity) :
    Ring.window (port.push capacity values).cells capacity port.pointer values.length = values := by
  induction values using List.reverseRecOn with
  | nil => rfl
  | append_singleton values value inductionHypothesis =>
    simp only [List.length_append, List.length_singleton] at fits ⊢
    have earlier := inductionHypothesis (by omega)
    rw [push_snoc, Port.put, push_pointer port values inside, Ring.window_push _ _ (by omega), earlier]

/-- Sizes of a list of segments, summed. -/
def total (segments : List (Nat × Nat)) : Nat := (segments.map Prod.snd).sum

/-- No segments have no cells. -/
@[simp] theorem total_nil : total [] = 0 := rfl

/-- The cells of the first segment and of those behind it. -/
@[simp] theorem total_cons (segment : Nat × Nat) (rest : List (Nat × Nat)) :
    total (segment :: rest) = segment.2 + total rest := by simp [total]

/-- Sizes add up over two lists of segments. -/
@[simp] theorem total_append (left right : List (Nat × Nat)) :
    total (left ++ right) = total left + total right := by simp [total]

/-- Sizes add up with a segment at the end. -/
@[simp] theorem total_snoc (segments : List (Nat × Nat)) (segment : Nat × Nat) :
    total (segments ++ [segment]) = total segments + segment.2 := by simp [total]

/-- Segments laid one behind the other, the first of them at `start`. -/
def Laid (capacity : Nat) : Nat → List (Nat × Nat) → Prop
  | _, [] => True
  | start, segment :: rest =>
      segment.1 % capacity = start % capacity ∧ Laid capacity (start + segment.2) rest

/-- Segments are laid out from a start as from any start with its remainder. -/
theorem laid_congr {capacity start start' : Nat} (same : start % capacity = start' % capacity)
    (segments : List (Nat × Nat)) : Laid capacity start segments ↔ Laid capacity start' segments := by
  induction segments generalizing start start' with
  | nil => simp [Laid]
  | cons segment rest inductionHypothesis =>
    have later : (start + segment.2) % capacity = (start' + segment.2) % capacity := by
      rw [Nat.add_mod start, Nat.add_mod start', same]
    simp only [Laid, same, inductionHypothesis later]

/-- A segment is laid behind others exactly at the end of their total size. -/
theorem laid_snoc {capacity start : Nat} (segments : List (Nat × Nat)) (segment : Nat × Nat) :
    Laid capacity start (segments ++ [segment]) ↔
      Laid capacity start segments ∧ segment.1 % capacity = (start + total segments) % capacity := by
  induction segments generalizing start with
  | nil => simp [Laid]
  | cons first rest inductionHypothesis =>
    simp only [List.cons_append, Laid, inductionHypothesis, total_cons, Nat.add_assoc, and_assoc]

/-- Every address of a laid segment is the start plus an offset below the total. -/
theorem laid_covers {capacity start address : Nat} {segments : List (Nat × Nat)}
    (laid : Laid capacity start segments) {segment : Nat × Nat} (member : segment ∈ segments)
    (covered : Covers capacity segment.1 segment.2 address) :
    Covers capacity start (total segments) address := by
  induction segments generalizing start with
  | nil => simp at member
  | cons first rest inductionHypothesis =>
    rcases List.mem_cons.mp member with rfl | later
    · obtain ⟨offset, inside, same⟩ := (covers_congr laid.1).mp covered
      exact ⟨offset, by rw [total_cons]; omega, same⟩
    · obtain ⟨offset, inside, same⟩ := inductionHypothesis laid.2 later
      exact ⟨first.2 + offset, by rw [total_cons]; omega, by rw [same, Nat.add_assoc]⟩

/-- A segment and the room behind it do not meet when both fit the capacity. -/
theorem apart_behind (start : Nat) {capacity size more : Nat} (fits : size + more ≤ capacity) :
    Apart capacity (start, size) (start + size, more) := by
  rintro address ⟨offset, inside, same⟩ ⟨other, otherInside, otherSame⟩
  have equal : (start + offset) % capacity = (start + (size + other)) % capacity := by
    rw [← same, otherSame, Nat.add_assoc]
  simp only at inside otherInside
  exact Ring.slots_ne (by omega) (by omega) (by omega) equal

/-- Laid segments that together fit the capacity are pairwise apart. -/
theorem laid_apart {capacity start : Nat} {segments : List (Nat × Nat)}
    (laid : Laid capacity start segments) (fits : total segments ≤ capacity) :
    segments.Pairwise (Apart capacity) := by
  induction segments generalizing start with
  | nil => exact List.Pairwise.nil
  | cons first rest inductionHypothesis =>
    rw [total_cons] at fits
    refine List.pairwise_cons.mpr ⟨?_, inductionHypothesis laid.2 (by omega)⟩
    intro later member address inFirst inLater
    exact apart_behind start fits address ((covers_congr laid.1).mp inFirst)
      (laid_covers laid.2 member inLater)

/-- A push into the room behind laid segments changes none of their contents. -/
theorem push_keeps_laid {capacity start : Nat} {segments : List (Nat × Nat)} (port : Port β)
    (values : List β) (inside : port.pointer < capacity) (laid : Laid capacity start segments)
    (behind : port.pointer % capacity = (start + total segments) % capacity)
    (fits : total segments + values.length ≤ capacity)
    {segment : Nat × Nat} (member : segment ∈ segments) :
    Ring.window (port.push capacity values).cells capacity segment.1 segment.2 =
      Ring.window port.cells capacity segment.1 segment.2 := by
  apply window_eq
  intro address covered
  apply push_outside port values inside
  intro filled
  exact apart_behind start fits address (laid_covers laid member covered)
    ((covers_congr behind).mp filled)

end DataPort
