import Mathlib.Data.List.Basic

/-!
# A serial bus of three lines

A master drives a select, a clock and a data line, and samples the answer of a device.
The device goes by the clock: what it takes from the bus is the level of the data line
at each rising edge while it is selected, and it answers while the clock is high.

An observer follows the lines. A pulse is a rising edge with the answers sampled until
the next change of the lines. The observer also keeps every level of the select line,
and whether the data line changed only in drives that leave the clock low.
-/

namespace SerialBus

/-- The levels of the three lines that the host drives. -/
structure Lines where
  select : Bool
  clock : Bool
  data : Bool

/-- The master drives the lines, or samples the answer. -/
inductive Event where
  | drive (lines : Lines)
  | sample (level : Bool)

/-- The data line at a rising edge, and the answers sampled while the clock is high. -/
structure Pulse where
  data : Bool
  samples : List Bool

/-- What one who watches the lines has noted: the levels now, the clock pulses given to a
selected device, the select line each time that the lines were driven, and whether the
data line never changed while the clock was driven high. -/
structure Observer where
  lines : Lines
  pulses : List Pulse
  selects : List Bool
  steady : Bool

/-- An answer is added to the last pulse. -/
def answered (level : Bool) : List Pulse → List Pulse
  | [] => []
  | [pulse] => [{ pulse with samples := pulse.samples ++ [level] }]
  | first :: second :: rest => first :: answered level (second :: rest)

/-- A sample belongs to the last pulse. -/
@[simp] theorem answered_snoc (level : Bool) (pulses : List Pulse) (pulse : Pulse) :
    answered level (pulses ++ [pulse]) =
      pulses ++ [{ pulse with samples := pulse.samples ++ [level] }] := by
  induction pulses with
  | nil => rfl
  | cons first rest inductionHypothesis =>
    cases rest with
    | nil => rfl
    | cons second rest =>
      simp only [List.cons_append] at inductionHypothesis ⊢
      rw [answered, inductionHypothesis]

namespace Observer

/-- Nothing was seen but the lines. -/
def start (lines : Lines) : Observer := ⟨lines, [], [], true⟩

/-- What the observer makes of an event. -/
def observe (observer : Observer) : Event → Observer
  | .drive lines =>
      { lines := lines
        pulses :=
          if !observer.lines.clock && lines.clock && lines.select then
            observer.pulses ++ [⟨lines.data, []⟩]
          else observer.pulses
        selects := observer.selects ++ [lines.select]
        steady := observer.steady && (observer.lines.data == lines.data || !lines.clock) }
  | .sample level =>
      if observer.lines.clock && observer.lines.select then
        { observer with pulses := answered level observer.pulses }
      else observer

/-- What the observer makes of events one after the other. -/
def watch (observer : Observer) (events : List Event) : Observer := events.foldl observe observer

/-- Events watched in two parts are watched in one. -/
@[simp] theorem watch_append (observer : Observer) (first second : List Event) :
    observer.watch (first ++ second) = (observer.watch first).watch second := by
  simp [watch]

/-- One pulse to a selected device. -/
def pulsed (observer : Observer) (pulse : Pulse) : Observer where
  lines := ⟨true, false, pulse.data⟩
  pulses := observer.pulses ++ [pulse]
  selects := observer.selects ++ [true, true, true]
  steady := observer.steady

/-- Data is put on the bus while the clock is low, and the clock goes up and down. -/
theorem watch_pulse (observer : Observer) (data : Bool) :
    observer.watch [.drive ⟨true, false, data⟩, .drive ⟨true, true, data⟩,
      .drive ⟨true, false, data⟩] = observer.pulsed ⟨data, []⟩ := by
  simp [watch, observe, pulsed]

/-- So it does around a sample. -/
theorem watch_sampled (observer : Observer) (data level : Bool) :
    observer.watch [.drive ⟨true, false, data⟩, .drive ⟨true, true, data⟩, .sample level,
      .drive ⟨true, false, data⟩] = observer.pulsed ⟨data, [level]⟩ := by
  simp [watch, observe, pulsed]

/-- The device is released: all lines are low, and its selection is over. -/
def released (observer : Observer) : Observer :=
  { observer with lines := ⟨false, false, false⟩, selects := observer.selects ++ [false] }

/-- Driving all lines low releases the device. -/
theorem observe_release (observer : Observer) :
    observer.observe (.drive ⟨false, false, false⟩) = observer.released := by
  simp [observe, released]

/-- Pulses one after the other. -/
def pulsedAll (observer : Observer) (pulses : List Pulse) : Observer := pulses.foldl pulsed observer

/-- Without pulses nothing is noted. -/
@[simp] theorem pulsedAll_nil (observer : Observer) : observer.pulsedAll [] = observer := rfl

/-- Pulses are noted one after the other. -/
@[simp] theorem pulsedAll_cons (observer : Observer) (pulse : Pulse) (pulses : List Pulse) :
    observer.pulsedAll (pulse :: pulses) = (observer.pulsed pulse).pulsedAll pulses := rfl

/-- Two series of pulses make one. -/
@[simp] theorem pulsedAll_append (observer : Observer) (first second : List Pulse) :
    observer.pulsedAll (first ++ second) = (observer.pulsedAll first).pulsedAll second := by
  simp [pulsedAll]

/-- Every pulse is noted behind the earlier ones. -/
@[simp] theorem pulsedAll_pulses (observer : Observer) (pulses : List Pulse) :
    (observer.pulsedAll pulses).pulses = observer.pulses ++ pulses := by
  induction pulses generalizing observer with
  | nil => simp
  | cons pulse rest inductionHypothesis => simp [inductionHypothesis, pulsed]

/-- Each pulse drives the lines three times, always with the select line high. -/
@[simp] theorem pulsedAll_selects (observer : Observer) (pulses : List Pulse) :
    (observer.pulsedAll pulses).selects =
      observer.selects ++ List.replicate (3 * pulses.length) true := by
  induction pulses generalizing observer with
  | nil => simp
  | cons pulse rest inductionHypothesis =>
    have counted : 3 * (pulse :: rest).length = 3 * rest.length + 3 := by
      rw [List.length_cons]
      omega
    rw [pulsedAll_cons, inductionHypothesis, pulsed, List.append_assoc, counted, List.replicate_succ,
      List.replicate_succ, List.replicate_succ]
    rfl

/-- Whole pulses change the data line only while the clock is low. -/
@[simp] theorem pulsedAll_steady (observer : Observer) (pulses : List Pulse) :
    (observer.pulsedAll pulses).steady = observer.steady := by
  induction pulses generalizing observer with
  | nil => rfl
  | cons pulse rest inductionHypothesis => simp [inductionHypothesis, pulsed]

end Observer

end SerialBus
