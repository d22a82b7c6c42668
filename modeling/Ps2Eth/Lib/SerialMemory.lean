import Mathlib.Data.BitVec
import Ps2Eth.Lib.SerialBus

/-!
# A serial memory on the bus

A memory chip takes one bit at each rising edge of the clock while it is selected: a
start bit, two bits of a command, and an address, the highest bit first. After the read
command it answers low, and from the next clock on the words from the address on, each
from its highest bit. It does not answer other commands, and to release it ends the
command.

What the chip answers depends on the bits it took since it was selected, and an observer
of the bus has these in its pulses.
-/

namespace SerialBus

/-- A chip with words at the addresses of so many bits. -/
structure Chip (addressBits wordBits : Nat) where
  word : BitVec addressBits → BitVec wordBits

/-- The bits of the read command, behind the start bit. -/
def readCommand : List Bool := [true, false]

/-- The bits behind the start bit. -/
def behindStart (bits : List Bool) : List Bool := (bits.dropWhile (! ·)).drop 1

/-- The address that bits stand for, the highest first. -/
def addressValue (addressBits : Nat) (bits : List Bool) : BitVec addressBits :=
  (BitVec.ofBoolListBE bits).setWidth addressBits

namespace Chip

variable {addressBits wordBits : Nat} (chip : Chip addressBits wordBits)

/-- The bit with a number, counted through the words from an address on. -/
def bit (address : BitVec addressBits) (number : Nat) : Bool :=
  (chip.word (address + BitVec.ofNat addressBits (number / wordBits))).getMsbD (number % wordBits)

/-- The level on the answer line so many clocks after the address. -/
def level (address : BitVec addressBits) : Nat → Bool
  | 0 => false
  | number + 1 => chip.bit address number

/-- What the chip answers after the bits it took, if it answers. -/
def answer (bits : List Bool) : Option Bool :=
  let command := behindStart bits
  let operands := command.drop readCommand.length
  if command.take readCommand.length = readCommand ∧ addressBits ≤ operands.length then
    some (chip.level (addressValue addressBits (operands.take addressBits))
      (operands.length - addressBits))
  else none

/-- A level may be sampled after the bits: it is the answer, if there is one. -/
def gives (bits : List Bool) (level : Bool) : Bool := (chip.answer bits).all (level == ·)

end Chip

/-- The chip on the bus: the lines, and the bits it took since it was selected. -/
structure Attached where
  lines : Lines
  bits : List Bool

namespace Attached

/-- What the chip makes of an event. -/
def react (attached : Attached) : Event → Attached
  | .drive lines =>
      { lines := lines
        bits :=
          if lines.select then
            if !attached.lines.clock && lines.clock then attached.bits ++ [lines.data]
            else attached.bits
          else [] }
  | .sample _ => attached

/-- What the chip makes of events one after the other. -/
def after (attached : Attached) (events : List Event) : Attached := events.foldl react attached

/-- The chip reacts to the last event after it has reacted to all others. -/
@[simp] theorem after_snoc (attached : Attached) (events : List Event) (event : Event) :
    attached.after (events ++ [event]) = (attached.after events).react event := by
  simp [after]

end Attached

section Answers

variable {addressBits wordBits : Nat} (chip : Chip addressBits wordBits)

/-- What is sampled while the clock is high is what the chip gives. -/
def allows (attached : Attached) : Event → Bool
  | .drive _ => true
  | .sample level =>
      !(attached.lines.clock && attached.lines.select) || chip.gives attached.bits level

/-- So it is all along. -/
def answers (attached : Attached) : List Event → Bool
  | [] => true
  | event :: later => allows chip attached event && answers (attached.react event) later

/-- A chip answers two parts of a run when it answers the first one, and from where that
left it the second one. -/
theorem answers_append (attached : Attached) (early later : List Event) :
    answers chip attached (early ++ later) =
      (answers chip attached early && answers chip (attached.after early) later) := by
  induction early generalizing attached with
  | nil => rfl
  | cons event early inductionHypothesis =>
    rw [List.cons_append, answers, inductionHypothesis, answers, Bool.and_assoc]
    rfl

/-- The samples of every pulse are what the chip gives after the bits up to it. -/
def Answered (taken : List Bool) : List Pulse → Prop
  | [] => True
  | pulse :: later =>
      (∀ level ∈ pulse.samples, chip.gives (taken ++ [pulse.data]) level = true) ∧
        Answered (taken ++ [pulse.data]) later

variable {chip}

/-- Two series of pulses are answered when the first is, and the second is behind the bits
of the first. -/
theorem answered_append {taken : List Bool} {early later : List Pulse} :
    Answered chip taken (early ++ later) ↔
      Answered chip taken early ∧ Answered chip (taken ++ early.map Pulse.data) later := by
  induction early generalizing taken with
  | nil => simp [Answered]
  | cons pulse early inductionHypothesis =>
    rw [List.cons_append, Answered, inductionHypothesis, Answered, and_assoc, List.map_cons,
      List.append_assoc]
    rfl

/-- A sample is added to the pulse before. -/
theorem Answered.sample {pulses : List Pulse} {level : Bool} (before : Answered chip [] pulses)
    (given : chip.gives (pulses.map Pulse.data) level = true) :
    Answered chip [] (answered level pulses) ∧
      (answered level pulses).map Pulse.data = pulses.map Pulse.data := by
  rcases List.eq_nil_or_concat pulses with rfl | ⟨early, pulse, rfl⟩
  · exact ⟨trivial, rfl⟩
  · rw [List.concat_eq_append] at before given ⊢
    rw [answered_snoc]
    constructor
    · obtain ⟨answeredEarly, last, -⟩ := answered_append.mp before
      refine answered_append.mpr ⟨answeredEarly, ?_, trivial⟩
      intro tested member
      rcases List.mem_append.mp member with known | new
      · exact last tested known
      · obtain rfl := List.mem_singleton.mp new
        rw [List.map_append] at given
        exact given
    · simp

/-- A chip and an observer of the same events agree while the chip is selected once. -/
structure Agrees (chip : Chip addressBits wordBits) (attached : Attached) (observer : Observer) :
    Prop where
  lines : attached.lines = observer.lines
  last : ∀ levels level, observer.selects = levels ++ [level] → observer.lines.select = level
  none : observer.selects = [] → observer.pulses = []
  during : ∀ count, observer.selects = false :: List.replicate count true →
    attached.bits = observer.pulses.map Pulse.data ∧ Answered chip [] observer.pulses
  behind : ∀ count, observer.selects = false :: (List.replicate count true ++ [false]) →
    Answered chip [] observer.pulses

/-- The levels of the select line after a further one that is high. -/
theorem selects_high {levels : List Bool} {count : Nat}
    (high : levels ++ [true] = false :: List.replicate count true) :
    ∃ fewer, levels = false :: List.replicate fewer true := by
  cases count with
  | zero =>
    have last := congrArg List.getLast? high
    simp at last
  | succ fewer =>
    rw [List.replicate_succ', ← List.cons_append] at high
    exact ⟨fewer, (List.append_inj' high rfl).1⟩

/-- The levels of the select line after a further one that is low. -/
theorem selects_low {levels : List Bool} {count : Nat}
    (low : levels ++ [false] = false :: List.replicate count true) : levels = [] := by
  cases count with
  | zero => simpa using low
  | succ fewer =>
    have last := congrArg List.getLast? low
    rw [List.replicate_succ', ← List.cons_append, List.getLast?_concat, List.getLast?_concat] at last
    cases last

/-- The lines are driven: the memory and the observer see the same levels. -/
theorem Agrees.drive {attached : Attached} {observer : Observer}
    (agrees : Agrees chip attached observer) (lines : Lines) :
    Agrees chip (attached.react (.drive lines)) (observer.observe (.drive lines)) where
  lines := rfl
  last levels level levelled := (List.append_inj' levelled rfl).2 |> List.singleton_inj.mp
  none empty := absurd empty (List.append_ne_nil_of_right_ne_nil _ (List.cons_ne_nil _ _))
  during count levels := by
    change observer.selects ++ [lines.select] = _ at levels
    cases select : lines.select with
    | false =>
      rw [select] at levels
      have nothing := agrees.none (selects_low levels)
      simp [Attached.react, Observer.observe, select, nothing, Answered]
    | true =>
      rw [select] at levels
      obtain ⟨fewer, before⟩ := selects_high levels
      obtain ⟨taken, samples⟩ := agrees.during fewer before
      cases rises : !observer.lines.clock && lines.clock with
      | false => simp [Attached.react, Observer.observe, agrees.lines, rises, select, taken, samples]
      | true =>
        have more : Answered chip [] (observer.pulses ++ [⟨lines.data, []⟩]) :=
          answered_append.mpr ⟨samples, by simp [Answered]⟩
        simp [Attached.react, Observer.observe, agrees.lines, rises, select, taken, more]
  behind count levels := by
    change observer.selects ++ [lines.select] = _ at levels
    rw [← List.cons_append] at levels
    obtain ⟨before, low⟩ := List.append_inj' levels rfl
    have select : lines.select = false := List.singleton_inj.mp low
    simpa [Observer.observe, select] using (agrees.during count before).2

/-- The answer is sampled: the level is the one that the memory gives. -/
theorem Agrees.sample {attached : Attached} {observer : Observer}
    (agrees : Agrees chip attached observer) {level : Bool}
    (allowed : allows chip attached (.sample level) = true) :
    Agrees chip (attached.react (.sample level)) (observer.observe (.sample level)) := by
  rcases asked : observer.lines.clock && observer.lines.select with - | -
  · simp only [Observer.observe, asked, Bool.false_eq_true, if_false]
    exact agrees
  · have given : chip.gives attached.bits level = true := by
      simpa [allows, agrees.lines, asked] using allowed
    simp only [Observer.observe, asked, if_true]
    constructor
    · exact agrees.lines
    · exact agrees.last
    · intro empty
      change answered level observer.pulses = []
      rw [agrees.none empty]
      rfl
    · intro count levels
      obtain ⟨taken, samples⟩ := agrees.during count levels
      rw [taken] at given
      obtain ⟨answered, same⟩ := samples.sample given
      exact ⟨taken.trans same.symm, answered⟩
    · intro count levels
      rw [← List.cons_append] at levels
      have low := agrees.last _ _ levels
      simp [low] at asked

/-- While the chip is selected once, an observer sees its answers: whatever was sampled
in a pulse is what the chip gives after the bits of the pulses up to it. -/
theorem agrees_watch {lines : Lines} (bits : List Bool) {events : List Event}
    (answered : answers chip ⟨lines, bits⟩ events = true) :
    Agrees chip (Attached.after ⟨lines, bits⟩ events) ((Observer.start lines).watch events) := by
  induction events using List.reverseRecOn with
  | nil =>
    constructor
    · rfl
    · intro levels level levelled
      simp [Observer.watch, Observer.start] at levelled
    · exact fun _ => rfl
    · intro count levels
      cases levels
    · intro count levels
      cases levels
  | append_singleton events event inductionHypothesis =>
    rw [answers_append, Bool.and_eq_true] at answered
    have before := inductionHypothesis answered.1
    rw [Attached.after_snoc, Observer.watch_append]
    cases event with
    | drive lines => exact before.drive lines
    | sample level =>
      refine before.sample ?_
      simpa [answers] using answered.2

/-- After a start bit, the read command and an address the chip answers. -/
theorem answer_read {operand : List Bool} (size : operand.length = addressBits)
    (zeros : List Bool) :
    chip.answer (true :: (readCommand ++ operand) ++ zeros) =
      some (chip.level (addressValue addressBits operand) zeros.length) := by
  have command : behindStart (true :: (readCommand ++ operand) ++ zeros) =
      readCommand ++ (operand ++ zeros) := by
    simp [behindStart]
  have operands : (operand ++ zeros).take addressBits = operand := by
    rw [← size, List.take_left]
  have long : addressBits ≤ (operand ++ zeros).length := by
    rw [List.length_append, size]
    exact Nat.le_add_right _ _
  have left : (operand ++ zeros).length - addressBits = zeros.length := by
    rw [List.length_append, size, Nat.add_sub_cancel_left]
  simp only [Chip.answer, command, List.take_left, List.drop_left]
  rw [if_pos ⟨trivial, long⟩, operands, left]

/-- The levels read after a start bit, the read command and an address are the bits of
the words from the address on. -/
theorem read_levels {operand : List Bool} {command : List Pulse} {levels : List Bool}
    (size : operand.length = addressBits)
    (commanded : command.map Pulse.data = true :: (readCommand ++ operand))
    (answered : Answered chip [] (command ++ levels.map fun level => ⟨false, [level]⟩)) :
    levels = (List.range levels.length).map (chip.bit (addressValue addressBits operand)) := by
  suffices later : ∀ read,
      Answered chip (true :: (readCommand ++ operand) ++ List.replicate read false)
        (levels.map fun level => ⟨false, [level]⟩) →
      levels = (List.range' read levels.length).map (chip.bit (addressValue addressBits operand)) by
    rw [List.range_eq_range']
    apply later 0
    have reading := (answered_append.mp answered).2
    rw [List.nil_append, commanded] at reading
    rwa [List.replicate_zero, List.append_nil]
  clear answered
  induction levels with
  | nil => exact fun _ _ => rfl
  | cons level levels inductionHypothesis =>
    rintro read ⟨first, rest⟩
    rw [List.append_assoc, ← List.replicate_succ'] at first rest
    have given := first level (List.mem_singleton.mpr rfl)
    rw [Chip.gives, answer_read size, List.length_replicate] at given
    have same : level = chip.bit (addressValue addressBits operand) read := by
      simpa [Chip.level] using given
    rw [List.length_cons, List.range'_succ, List.map_cons, ← same, ← inductionHypothesis _ rest]

end Answers

end SerialBus
