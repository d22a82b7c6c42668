import Ps2Eth.Lib.FrameRing
import Ps2Eth.Lib.Service
import Ps2Eth.SmapLinux.Completions

/-!
# The receive path of the smap-linux driver over whole runs

`HandleRXInt` as `SMapInterrupt` calls it, in runs of the machine that also sends and
completes frames. While the loop stands between any two of its steps the hardware may
fill the next descriptor and write any cell of the receive memory that no filled
descriptor claims.

A frame is its descriptor with the words that stood in its segment when the descriptor
was filled. The loop serves these frames in order, and one that it has not come to yet
has its interrupt latched.
-/

namespace Ps2Eth.SmapLinux.Interrupt

/-- The receive descriptors over the receive memory. -/
def rxFormat : FrameRing.Format SMapBD where
  slots := smapBdMaxEntry
  capacity := smapRxBufSize
  isFree := SMapBD.empty
  start := SMapBD.pointer
  extent bd := roundUp bd.length
  someSlot := by decide

/-- A frame as the hardware handed it over. -/
abbrev RxFrame := SMapBD × List UInt8

/-- What the stack gets for a frame: nothing if it is not acceptable or no memory was
left, else a pbuf of its length with the words of the frame. -/
def deliver (frame : RxFrame) (allocOk : Bool) : Option RxPBuf :=
  if frame.1.acceptable = true ∧ allocOk = true then
    some ⟨frame.1.length, fun index => frame.2[index]?⟩
  else none

/-- The driver's way with frames, which are counted at `SMAP_RXFIFO_FRAME_DEC`. -/
def rxPolicy : Service.Policy RxFrame Bool RxPBuf Nat where
  outcome frame allocOk := (deliver frame allocOk).toList
  account frameDec _ _ := frameDec + 1

/-- A descriptor as the hardware fills it. -/
def filled (bd : SMapBD) : SMapBD := { bd with ctrlStat := bd.ctrlStat &&& ~~~smapBdRxEmpty }

/-- The hardware fills descriptors with segments of the receive memory and writes no
cell that a filled descriptor claims. -/
structure FillsApart (machine : Machine) (event : Event) : Prop where
  pointer : ∀ bd cells, event = .fill bd cells → smapRxBufBase ≤ bd.pointer ∧
    bd.pointer < smapRxBufBase + smapRxBufSize ∧ bd.pointer % 4 = 0
  apart : ∀ bd cells, event = .fill bd cells → ∀ address,
    rxFormat.Claimed machine.rx.pRXBD address → cells address = machine.rx.fifo.cells address

namespace Machine

/-- The frame that arrives in a step. -/
def arrived (_ : Machine) : Event → List RxFrame
  | .fill bd cells => [rxFormat.frameAt cells (filled bd)]
  | _ => []

/-- The loop of `HandleRXInt` is about to take a frame. -/
def takes (machine : Machine) : Bool :=
  match machine.place with
  | .rxScan _ => !(machine.rx.pRXBD machine.rx.u8RXIndex).empty
  | _ => false

/-- What `pbuf_alloc` would answer where the loop takes a frame. -/
def answered (machine : Machine) : Event → List Bool
  | .handler allocOk => if machine.takes then [allocOk] else []
  | _ => []

/-- The pbuf given to `SMapLowLevelInput` in a step. -/
def input (machine : Machine) : Event → List RxPBuf
  | .handler allocOk =>
      if machine.takes then
        ((RXPass.mk machine.rx true).fetch
          (machine.rx.pRXBD machine.rx.u8RXIndex) allocOk).1.toList
      else []
  | _ => []

/-- The index of the next frame to take: the loop gives a descriptor back before it
moves on. -/
def rxHead (machine : Machine) : Nat :=
  match machine.place with
  | .rxGiven _ => machine.rx.u8RXIndex + 1
  | _ => machine.rx.u8RXIndex

/-- Frames wait in the ring from the next one to take on, and the hardware goes on
behind them. -/
structure Pending (machine : Machine) (frames : List RxFrame) : Prop where
  ring : FrameRing.Waiting rxFormat machine.rx.pRXBD machine.rx.fifo.cells machine.rxHead frames
  behind : (machine.rxHead + frames.length) % smapBdMaxEntry = machine.rxNext
  index : machine.rx.u8RXIndex < smapBdMaxEntry
  pointer : ∀ frame ∈ frames, smapRxBufBase ≤ frame.1.pointer ∧
    frame.1.pointer < smapRxBufBase + smapRxBufSize ∧ frame.1.pointer % 4 = 0

/-- The receive side seen as a server. -/
def rxView : Service.View Machine Event RxFrame Bool RxPBuf Nat where
  arrives := arrived
  answers := answered
  puts := input
  tally machine := machine.rx.frameDec
  Waiting := Pending

end Machine

open Machine

/-- What is found for a descriptor is what is delivered for its frame. -/
theorem delivery_eq (smap : SMapRX) (bd : SMapBD) (allocOk : Bool) :
    smap.delivery bd allocOk = deliver (rxFormat.frameAt smap.fifo.cells bd) allocOk := by
  have words (index : Nat) :
      (Ring.window smap.fifo.cells smapRxBufSize bd.pointer (roundUp bd.length))[index]? =
        if index < roundUp bd.length then
          some (smap.fifo.cells ((bd.pointer + index) % smapRxBufSize)) else none := by
    by_cases within : index < roundUp bd.length
    · simp [Ring.window, within]
    · simp [Ring.window, within]
  simp only [SMapRX.delivery, deliver, FrameRing.Format.frameAt, rxFormat, words]

/-- A descriptor that the hardware has filled is not empty. -/
@[simp] theorem filled_empty (bd : SMapBD) : (filled bd).empty = false := by
  have cleared : bd.ctrlStat &&& ~~~smapBdRxEmpty &&& smapBdRxEmpty = 0 := by
    have apart : ~~~smapBdRxEmpty &&& smapBdRxEmpty = 0#16 := by decide
    rw [BitVec.and_assoc, apart]
    exact BitVec.and_zero
  simp [SMapBD.empty, filled, cleared]

/-- A step that takes no frame and leaves the receive side alone is no more than a move
of the other parts. -/
theorem quiet_moves {machine next : Machine} {event : Event} {frames : List RxFrame}
    (pending : machine.Pending frames) (rx : next.rx = machine.rx)
    (rxNext : next.rxNext = machine.rxNext) (head : next.rxHead = machine.rxHead)
    (nothing : machine.arrived event = []) (unanswered : machine.answered event = [])
    (silent : machine.input event = []) :
    Service.Moves rxView rxPolicy machine event next frames := by
  refine Service.Moves.arrival ?_ unanswered silent (congrArg SMapRX.frameDec rx)
  change next.Pending (frames ++ machine.arrived event)
  rw [nothing, List.append_nil]
  constructor
  · rw [rx, head]
    exact pending.ring
  · rw [head, rxNext]
    exact pending.behind
  · rw [rx]
    exact pending.index
  · exact pending.pointer

/-- The hardware fills the next descriptor: its frame waits last. -/
theorem fill_moves {machine next : Machine} {bd : SMapBD} {cells : Nat → UInt8}
    {frames : List RxFrame} (pending : machine.Pending frames)
    (apart : FillsApart machine (.fill bd cells))
    (taken : machine.step (.fill bd cells) = some next) :
    Service.Moves rxView rxPolicy machine (.fill bd cells) next frames := by
  simp only [step] at taken
  split at taken
  next empty =>
    obtain rfl := Option.some.inj taken
    have slot : (machine.rxNext : Nat) = (machine.rxHead + frames.length) % rxFormat.slots :=
      pending.behind.symm
    rw [slot] at empty
    have room := pending.ring.next_free_iff.mp empty
    have written := pending.ring.write (apart.apart bd cells rfl)
    have appended := written.fill room (filled_empty bd)
    rw [← slot] at appended
    refine Service.Moves.arrival ⟨appended, ?_, pending.index, ?_⟩ rfl rfl rfl
    · have behind := pending.behind
      have advanced : ((machine.rxNext + 1 : Fin smapBdMaxEntry) : Nat) =
          (machine.rxNext + 1) % smapBdMaxEntry := by
        rw [Fin.val_add]
        rfl
      change (machine.rxHead + (frames ++ [_]).length) % smapBdMaxEntry = _
      rw [List.length_append, List.length_singleton, advanced, ← behind]
      simp only [smapBdMaxEntry]
      omega
    · intro frame member
      rcases List.mem_append.mp member with earlier | last
      · exact pending.pointer frame earlier
      · obtain rfl := List.mem_singleton.mp last
        exact apart.pointer bd cells rfl
  next => simp at taken

/-- The frames taken so far, with the answers of `pbuf_alloc`. -/
def served (steps : List (Machine × Event)) : List (RxFrame × Bool) := rxView.served steps

/-- Ordered exactly-once reception, as seen after some steps. The frames taken are the
first that arrived; the stack got the acceptable ones among them that found memory,
each with the words it had on arrival; each was counted once; and outside of the scan
a frame that waits has its interrupt latched. -/
structure Receives (steps : List (Machine × Event)) (machine : Machine) : Prop where
  taken : (served steps).length = (Runs.observed Machine.answered steps).length
  input : Runs.observed Machine.input steps =
    (served steps).filterMap fun entry => deliver entry.1 entry.2
  room : (Runs.observed Machine.arrived steps).length ≤ (served steps).length + smapBdMaxEntry
  latched : machine.place.scansRx = false →
    (served steps).length < (Runs.observed Machine.arrived steps).length →
      latched machine.intrStat intrRxEnd = true

end Ps2Eth.SmapLinux.Interrupt
