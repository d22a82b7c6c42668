import Ps2Eth.Lib.DataPort

/-!
# Frames behind a ring of descriptors

A device fills the descriptors of a ring one after the other, each with a segment of a
circular memory, and a driver takes the frames and gives the descriptors back. The
device may write any cell of the memory that no filled descriptor claims, also while
the driver is at work.

What waits is told by the frames themselves: each descriptor as it was filled and the
contents that its segment had then. Whatever the device writes, they stay what they
were until the descriptor is given back.
-/

namespace FrameRing

universe u v

variable {β : Type u} {γ : Type v}

/-- A ring of descriptors over a circular memory: which descriptors are the device's, and
the segment that a filled one names. -/
structure Format (β : Type u) where
  slots : Nat
  capacity : Nat
  isFree : β → Bool
  start : β → Nat
  extent : β → Nat
  someSlot : 0 < slots

/-- A filled descriptor with the contents of its segment. -/
def Format.frameAt (format : Format β) (cells : Nat → γ) (bd : β) : β × List γ :=
  (bd, Ring.window cells format.capacity (format.start bd) (format.extent bd))

/-- Some filled descriptor names the address. -/
def Format.Claimed (format : Format β) (bds : Nat → β) (address : Nat) : Prop :=
  ∃ slot < format.slots, format.isFree (bds slot) = false ∧
    DataPort.Covers format.capacity (format.start (bds slot)) (format.extent (bds slot)) address

/-- Whether a cell is claimed by a filled descriptor is found by looking at every slot. -/
instance (format : Format β) (bds : Nat → β) (address : Nat) :
    Decidable (format.Claimed bds address) := by
  unfold Format.Claimed DataPort.Covers
  infer_instance

/-- The frames wait in the slots from `head` on, each as it was filled, and the device
has the other slots. -/
structure Waiting (format : Format β) (bds : Nat → β) (cells : Nat → γ) (head : Nat)
    (frames : List (β × List γ)) : Prop where
  fits : frames.length ≤ format.slots
  window : Ring.window bds format.slots head frames.length = frames.map Prod.fst
  filled : ∀ frame ∈ frames, format.isFree frame.1 = false
  contents : ∀ frame ∈ frames, format.frameAt cells frame.1 = frame
  free : ∀ offset, frames.length ≤ offset → offset < format.slots →
    format.isFree (bds ((head + offset) % format.slots)) = true

variable {format : Format β} {bds : Nat → β} {cells : Nat → γ} {head : Nat}
  {frames : List (β × List γ)}

/-- In a ring that is all the device's, nothing waits. -/
theorem waiting_nil (free : ∀ slot < format.slots, format.isFree (bds slot) = true) (head : Nat) :
    Waiting format bds cells head [] where
  fits := Nat.zero_le _
  window := by simp
  filled := by simp
  contents := by simp
  free offset _ _ := free _ (Nat.mod_lt _ format.someSlot)

/-- A head counts only modulo the size of the ring. -/
theorem Waiting.congr (waiting : Waiting format bds cells head frames) {head' : Nat}
    (same : head % format.slots = head' % format.slots) :
    Waiting format bds cells head' frames where
  fits := waiting.fits
  window := by rw [← Ring.window_congr same, waiting.window]
  filled := waiting.filled
  contents := waiting.contents
  free offset behind inside := by
    have slot : (head' + offset) % format.slots = (head + offset) % format.slots := by
      rw [Nat.add_mod head', Nat.add_mod head, same]
    rw [slot]
    exact waiting.free offset behind inside

/-- The descriptor at the head is that of the first frame. -/
theorem Waiting.head_eq {frame : β × List γ} {rest : List (β × List γ)}
    (waiting : Waiting format bds cells head (frame :: rest)) :
    bds (head % format.slots) = frame.1 := by
  have window := waiting.window
  rw [List.length_cons, Ring.window_pop, List.map_cons] at window
  exact (List.cons.inj window).1

/-- The driver finds a frame at the head exactly when one waits. -/
theorem Waiting.head_free_iff (waiting : Waiting format bds cells head frames) :
    format.isFree (bds (head % format.slots)) = true ↔ frames = [] := by
  cases frames with
  | nil =>
    have first := waiting.free 0 (Nat.le_refl _) format.someSlot
    rw [Nat.add_zero] at first
    simp [first]
  | cons frame rest =>
    have filled := waiting.filled frame (List.mem_cons_self ..)
    rw [waiting.head_eq, filled]
    simp

/-- The device finds a descriptor of its own behind the frames exactly when the ring is
not full of them. -/
theorem Waiting.next_free_iff (waiting : Waiting format bds cells head frames) :
    format.isFree (bds ((head + frames.length) % format.slots)) = true ↔
      frames.length < format.slots := by
  constructor
  · intro free
    refine Nat.lt_of_le_of_ne waiting.fits fun full => ?_
    rw [full, Nat.add_mod_right, waiting.head_free_iff] at free
    have some := format.someSlot
    rw [free, List.length_nil] at full
    omega
  · exact waiting.free _ (Nat.le_refl _)

/-- Every waiting frame's descriptor stands in the ring. -/
theorem Waiting.claims (waiting : Waiting format bds cells head frames)
    {frame : β × List γ} (member : frame ∈ frames) {address : Nat}
    (covered : DataPort.Covers format.capacity (format.start frame.1) (format.extent frame.1) address) :
    format.Claimed bds address := by
  have named : frame.1 ∈ Ring.window bds format.slots head frames.length :=
    waiting.window ▸ List.mem_map_of_mem member
  obtain ⟨offset, -, here⟩ := Ring.mem_window.mp named
  refine ⟨(head + offset) % format.slots, Nat.mod_lt _ format.someSlot, ?_, ?_⟩
  · rw [here]
    exact waiting.filled frame member
  · rwa [here]

/-- Cells that no filled descriptor claims may change. -/
theorem Waiting.write (waiting : Waiting format bds cells head frames) {cells' : Nat → γ}
    (kept : ∀ address, format.Claimed bds address → cells' address = cells address) :
    Waiting format bds cells' head frames where
  fits := waiting.fits
  window := waiting.window
  filled := waiting.filled
  contents frame member := by
    have same : format.frameAt cells' frame.1 = format.frameAt cells frame.1 := by
      unfold Format.frameAt
      rw [DataPort.window_eq fun address covered => kept address (waiting.claims member covered)]
    rw [same, waiting.contents frame member]
  free := waiting.free

/-- The device fills the descriptor behind the frames: its frame waits last, with what
its segment holds now. -/
theorem Waiting.fill (waiting : Waiting format bds cells head frames) {bd : β}
    (room : frames.length < format.slots) (isFilled : format.isFree bd = false) :
    Waiting format (Function.update bds ((head + frames.length) % format.slots) bd) cells head
      (frames ++ [format.frameAt cells bd]) where
  fits := by
    rw [List.length_append]
    exact room
  window := by
    rw [List.length_append, List.length_singleton, Ring.window_push _ _ room, waiting.window,
      List.map_append]
    simp [Format.frameAt]
  filled := by
    intro frame member
    rcases List.mem_append.mp member with earlier | last
    · exact waiting.filled frame earlier
    · obtain rfl := List.mem_singleton.mp last
      exact isFilled
  contents := by
    intro frame member
    rcases List.mem_append.mp member with earlier | last
    · exact waiting.contents frame earlier
    · obtain rfl := List.mem_singleton.mp last
      simp [Format.frameAt]
  free offset behind inside := by
    rw [List.length_append, List.length_singleton] at behind
    have other : (head + offset) % format.slots ≠ (head + frames.length) % format.slots :=
      Ring.slots_ne (by omega) inside room
    rw [Function.update_of_ne other]
    exact waiting.free offset (by omega) inside

/-- The driver gives the descriptor at the head back: the first frame is gone and the
others wait from the next slot on. -/
theorem Waiting.release {frame : β × List γ} {rest : List (β × List γ)}
    (waiting : Waiting format bds cells head (frame :: rest)) {bd : β}
    (isFree : format.isFree bd = true) :
    Waiting format (Function.update bds (head % format.slots) bd) cells (head + 1) rest := by
  have fits : rest.length + 1 ≤ format.slots := waiting.fits
  have window := waiting.window
  rw [List.length_cons, Ring.window_pop, List.map_cons] at window
  have others := (List.cons.inj window).2
  -- the slot at the head is the last one seen from the next slot
  have last : head % format.slots = (head + 1 + (format.slots - 1)) % format.slots := by
    have round : head + 1 + (format.slots - 1) = head + format.slots := by omega
    rw [round, Nat.add_mod_right]
  constructor
  · omega
  · rw [last, Ring.window_update_outside _ _ (by omega) (by omega), others]
  · intro frame member
    exact waiting.filled frame (List.mem_cons_of_mem _ member)
  · intro frame member
    exact waiting.contents frame (List.mem_cons_of_mem _ member)
  · intro offset behind inside
    by_cases own : offset = format.slots - 1
    · rw [own, ← last, Function.update_self, isFree]
    · have other : (head + 1 + offset) % format.slots ≠
          (head + 1 + (format.slots - 1)) % format.slots :=
        Ring.slots_ne own inside (by omega)
      have shifted : head + 1 + offset = head + (offset + 1) := by omega
      rw [last, Function.update_of_ne other, shifted]
      refine waiting.free (offset + 1) ?_ (by omega)
      rw [List.length_cons]
      omega

end FrameRing
