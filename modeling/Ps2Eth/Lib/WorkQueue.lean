import Mathlib.Data.List.Basic

/-!
# Work queues

Items arrive at the end of a queue and only the first item is ever tried. A try
either settles the item, which then leaves the queue, or keeps it in place.

The law of such a queue is that the items that arrived are the settled ones
followed by the waiting ones: items are settled in the order of their arrival,
and a settled item is never tried again.
-/

namespace WorkQueue

universe u

variable {α : Type u}

/-- An item arrives in the queue, or the first item is tried, which either settles it or
leaves it where it is. -/
inductive Event (α : Type u) where
  | arrived (item : α)
  | tried (item : α) (settles : Bool)

/-- The events of a queue that was empty at first, and the items now waiting. -/
inductive Walk : List (Event α) → List α → Prop
  | empty : Walk [] []
  | arrived {events : List (Event α)} {waiting : List α} (before : Walk events waiting) (item : α) :
      Walk (events ++ [.arrived item]) (waiting ++ [item])
  | kept {events : List (Event α)} {item : α} {waiting : List α}
      (before : Walk events (item :: waiting)) :
      Walk (events ++ [.tried item false]) (item :: waiting)
  | settled {events : List (Event α)} {item : α} {waiting : List α}
      (before : Walk events (item :: waiting)) :
      Walk (events ++ [.tried item true]) waiting

/-- The items that arrived, in order. -/
def arrivals (events : List (Event α)) : List α :=
  events.filterMap fun
    | .arrived item => some item
    | .tried _ _ => none

/-- The items settled, in order. -/
def settlements (events : List (Event α)) : List α :=
  events.filterMap fun
    | .tried item true => some item
    | _ => none

/-- Arrivals of two parts of a run follow one another. -/
@[simp] theorem arrivals_append (earlier later : List (Event α)) :
    arrivals (earlier ++ later) = arrivals earlier ++ arrivals later := List.filterMap_append

/-- So do the items settled in them. -/
@[simp] theorem settlements_append (earlier later : List (Event α)) :
    settlements (earlier ++ later) = settlements earlier ++ settlements later := List.filterMap_append

/-- What arrived is what was settled, followed by what waits. -/
theorem Walk.conserved {events : List (Event α)} {waiting : List α} (walk : Walk events waiting) :
    arrivals events = settlements events ++ waiting := by
  induction walk with
  | empty => rfl
  | arrived before item inductionHypothesis =>
    rw [arrivals_append, settlements_append, inductionHypothesis]
    simp [arrivals, settlements]
  | kept before inductionHypothesis =>
    rw [arrivals_append, settlements_append, inductionHypothesis]
    simp [arrivals, settlements]
  | settled before inductionHypothesis =>
    rw [arrivals_append, settlements_append, inductionHypothesis]
    simp [arrivals, settlements]

/-- Every prefix of the events is a walk. -/
theorem Walk.early {early events : List (Event α)} {waiting : List α} (walk : Walk events waiting)
    (shorter : early <+: events) : ∃ waited, Walk early waited := by
  induction walk with
  | empty => exact ⟨[], List.prefix_nil.mp shorter ▸ Walk.empty⟩
  | arrived before item inductionHypothesis =>
    rcases List.prefix_concat_iff.mp shorter with same | strictly
    · exact ⟨_, same ▸ Walk.arrived before item⟩
    · exact inductionHypothesis strictly
  | kept before inductionHypothesis =>
    rcases List.prefix_concat_iff.mp shorter with same | strictly
    · exact ⟨_, same ▸ Walk.kept before⟩
    · exact inductionHypothesis strictly
  | settled before inductionHypothesis =>
    rcases List.prefix_concat_iff.mp shorter with same | strictly
    · exact ⟨_, same ▸ Walk.settled before⟩
    · exact inductionHypothesis strictly

/-- A walk that ends with a try found the tried item first in the queue. -/
theorem Walk.tried_first {events : List (Event α)} {item : α} {settles : Bool} {waiting : List α}
    (walk : Walk (events ++ [.tried item settles]) waiting) :
    ∃ rest, Walk events (item :: rest) := by
  generalize same : events ++ [Event.tried item settles] = all at walk
  cases walk with
  | empty => simp at same
  | arrived before other =>
    have last := (List.append_inj' same rfl).2
    simp at last
  | kept before | settled before =>
    obtain ⟨rfl, last⟩ := List.append_inj' same rfl
    obtain ⟨rfl, -⟩ : item = _ ∧ settles = _ := by simpa using last
    exact ⟨_, before⟩

/-- The item tried after `n` settlements is the `n`th arrival: a settled item is
never tried again. -/
theorem Walk.in_turn {early events : List (Event α)} {item : α} {settles : Bool} {waiting : List α}
    (walk : Walk events waiting) (tried : early ++ [.tried item settles] <+: events) :
    (arrivals early)[(settlements early).length]? = some item := by
  obtain ⟨waited, reached⟩ := walk.early tried
  obtain ⟨rest, before⟩ := reached.tried_first
  rw [before.conserved, List.getElem?_append_right (Nat.le_refl _), Nat.sub_self]
  rfl

end WorkQueue
