import Ps2Eth.Lib.Loops
import Ps2Eth.Smap.Transfer

/-!
# Reception in the smap driver

`HandleRxIntr` and `CopyFromFIFO` of `smap/xfer.c`. The driver walks the ring of
64 receive descriptors; the frames stand in the receive memory, which is read
through the data port from the read pointer on.

Each turn of the loop may call `pbuf_alloc` and `dev9DmaTransfer` once. What they
answer is told by the number of the turn.
-/

namespace Ps2Eth.Smap

open DataPort (Port readInto)

/-- `SMAP_RX_BUFSIZE`, round which the read pointer of the receive FIFO counts. -/
def smapRxBufsize : Nat := 16384

/-- `SMAP_BD_RX_EMPTY`: set by the driver, cleared by the hardware. -/
def smapBdRxEmpty : BitVec 16 := 1#16 <<< 15
/-- `SMAP_BD_RX_OVERRUN`: the FIFO had no room. -/
def smapBdRxOverrun : BitVec 16 := 1#16 <<< 9
/-- `SMAP_BD_RX_RUNTFRM`: the frame is a runt, and is dropped. -/
def smapBdRxRuntfrm : BitVec 16 := 1#16 <<< 6
/-- `SMAP_BD_RX_SHORTEVNT`: a short event, counted among the errors. -/
def smapBdRxShortevnt : BitVec 16 := 1#16 <<< 5
/-- `SMAP_BD_RX_ALIGNERR`: an alignment error, counted among the errors. -/
def smapBdRxAlignerr : BitVec 16 := 1#16 <<< 4
/-- `SMAP_BD_RX_BADFCS`: a bad frame check sequence. -/
def smapBdRxBadfcs : BitVec 16 := 1#16 <<< 3
/-- `SMAP_BD_RX_FRMTOOLONG`: a frame that is too long. -/
def smapBdRxFrmtoolong : BitVec 16 := 1#16 <<< 2
/-- `SMAP_BD_RX_OUTRANGE`: a length out of range. -/
def smapBdRxOutrange : BitVec 16 := 1#16 <<< 1
/-- `SMAP_BD_RX_INRANGE`: a length that does not match. -/
def smapBdRxInrange : BitVec 16 := 1#16 <<< 0

/-- The error bits `HandleRxIntr` tests. -/
def smapBdRxErrors : BitVec 16 :=
  smapBdRxInrange ||| smapBdRxOutrange ||| smapBdRxFrmtoolong ||| smapBdRxBadfcs |||
    smapBdRxAlignerr ||| smapBdRxShortevnt ||| smapBdRxRuntfrm ||| smapBdRxOverrun

/-- The receive counters of `struct RuntimeStats`. -/
structure RxRuntimeStats where
  rxDroppedFrameCount : BitVec 32
  rxErrorCount : BitVec 32
  rxFrameOverrunCount : BitVec 16
  rxFrameBadLengthCount : BitVec 16
  rxFrameBadFCSCount : BitVec 16
  rxFrameBadAlignmentCount : BitVec 16
  rxAllocFail : BitVec 16

/-- A pbuf of the pool as `HandleRxIntr` passes it on: the length it was allocated
for and the bytes written to its payload. -/
structure RxPbuf where
  length : Nat
  payload : Nat → Option UInt8

/-- The driver data and the hardware of the receive path. The port's pointer is
`SMAP_R_RXFIFO_RD_PTR`, `frameCnt` is `SMAP_R_RXFIFO_FRAME_CNT`. -/
structure RxAdapter where
  rxBDIndex : Nat
  stats : RxRuntimeStats
  bd : Nat → SmapBd
  fifo : Port UInt8
  frameCnt : Nat

/-- Write `SMAP_R_RXFIFO_RD_PTR`, a register of 16 bits that addresses the receive
memory modulo its size. -/
def setReadPtr (fifo : Port UInt8) (value : Nat) : Port UInt8 :=
  { fifo with pointer := value % 65536 % smapRxBufsize }

/-- `SmapDmaTransfer` from the device: whole blocks of 64 bytes, all of them or none, and
how many bytes that was. -/
def smapDmaTransferToMem (transfer : Port UInt8 × (Nat → Option UInt8)) (size : Nat)
    (dmaOk : Bool) : (Port UInt8 × (Nat → Option UInt8)) × Nat :=
  let numBlocks := size / 64
  if 0 < numBlocks then
    if dmaOk then (readInto smapRxBufsize transfer 0 (numBlocks * 64), numBlocks * 64)
    else (transfer, 0)
  else (transfer, 0)

/-- The word loop of `CopyFromFIFO` from byte `i` on. Every turn moves one word,
so `length` turns are enough. -/
def readWords (length : Nat) :
    Nat → Nat → Port UInt8 × (Nat → Option UInt8) → Port UInt8 × (Nat → Option UInt8)
  | 0, _, transfer => transfer
  | turns + 1, i, transfer =>
      if i < length then
        readWords length turns (i + 4) (readInto smapRxBufsize transfer (i / 4 * 4) 4)
      else transfer

/-- `CopyFromFIFO`. The read pointer is set, whole blocks are left to the DMA, and the
words that remain are read one by one. -/
def copyFromFIFO (fifo : Port UInt8) (buffer : Nat → Option UInt8) (length rxBdPtr : Nat)
    (dmaOk : Bool) : Port UInt8 × (Nat → Option UInt8) :=
  let moved := smapDmaTransferToMem (setReadPtr fifo rxBdPtr, buffer) length dmaOk
  if moved.2 < length then readWords length length moved.2 moved.1 else moved.1

/-- The counters of a frame received with errors. -/
def countRxErrors (stats : RxRuntimeStats) (ctrlStat : BitVec 16) : RxRuntimeStats :=
  { stats with
    rxErrorCount := stats.rxErrorCount + BitVec.ofNat 32 ((List.range 16).countP ctrlStat.getLsbD)
    rxDroppedFrameCount := stats.rxDroppedFrameCount + 1
    rxFrameOverrunCount :=
      if hasAny ctrlStat smapBdRxOverrun then stats.rxFrameOverrunCount + 1
      else stats.rxFrameOverrunCount
    rxFrameBadLengthCount :=
      if hasAny ctrlStat (smapBdRxInrange ||| smapBdRxOutrange ||| smapBdRxFrmtoolong |||
          smapBdRxShortevnt ||| smapBdRxRuntfrm) then stats.rxFrameBadLengthCount + 1
      else stats.rxFrameBadLengthCount
    rxFrameBadFCSCount :=
      if hasAny ctrlStat smapBdRxBadfcs then stats.rxFrameBadFCSCount + 1
      else stats.rxFrameBadFCSCount
    rxFrameBadAlignmentCount :=
      if hasAny ctrlStat smapBdRxAlignerr then stats.rxFrameBadAlignmentCount + 1
      else stats.rxFrameBadAlignmentCount }

namespace RxAdapter

/-- The error path, the delivery and the allocation failure of `HandleRxIntr`: the
pbuf given to `SMapLowLevelInput`, if there is one, and what has changed. -/
def takeFrame (adapter : RxAdapter) (bd : SmapBd) (allocOk dmaOk : Bool) :
    Option RxPbuf × RxAdapter :=
  let lengthRounded := sizeRounded bd.length % 65536
  if hasAny bd.ctrlStat smapBdRxErrors then
    (none, { adapter with
      stats := countRxErrors adapter.stats bd.ctrlStat
      fifo := setReadPtr adapter.fifo (bd.pointer + lengthRounded) })
  else if allocOk then
    let copied := copyFromFIFO adapter.fifo (fun _ => none) bd.length bd.pointer dmaOk
    (some ⟨lengthRounded, copied.2⟩, { adapter with fifo := copied.1 })
  else
    (none, { adapter with
      stats := { adapter.stats with rxAllocFail := adapter.stats.rxAllocFail + 1 }
      fifo := setReadPtr adapter.fifo (bd.pointer + lengthRounded) })

/-- The end of a turn: `SMAP_R_RXFIFO_FRAME_DEC` is written, the descriptor given
back and the index advanced. -/
def release (adapter : RxAdapter) : RxAdapter :=
  let slot := adapter.rxBDIndex % smapBdMaxEntry
  { adapter with
    frameCnt := adapter.frameCnt - 1
    bd := Function.update adapter.bd slot { adapter.bd slot with ctrlStat := smapBdRxEmpty }
    rxBDIndex := (adapter.rxBDIndex + 1) % 256 }

/-- One turn of the loop of `HandleRxIntr`, which ends at `none`. -/
def rxTurn (adapter : RxAdapter) (allocOk dmaOk : Bool) : Option (Option RxPbuf × RxAdapter) :=
  if 0 < adapter.frameCnt then
    let bd := adapter.bd (adapter.rxBDIndex % smapBdMaxEntry)
    if hasAny bd.ctrlStat smapBdRxEmpty then none
    else
      let taken := adapter.takeFrame bd allocOk dmaOk
      some (taken.1, taken.2.release)
  else none

/-- The turns of `HandleRxIntr`. Each of them decrements the frame counter, so it
takes at most as many as there are frames. -/
def rxTurns (adapter : RxAdapter) (allocOk dmaOk : Nat → Bool) : List (Option RxPbuf × RxAdapter) :=
  Loops.turns (fun number adapter => adapter.rxTurn (allocOk number) (dmaOk number))
    adapter.frameCnt 0 adapter

/-- `HandleRxIntr`: `NumPacketsReceived`, the pbufs given to `SMapLowLevelInput`
and the state it leaves. -/
def handleRxIntr (adapter : RxAdapter) (allocOk dmaOk : Nat → Bool) :
    Nat × List RxPbuf × RxAdapter :=
  let turns := adapter.rxTurns allocOk dmaOk
  let input := turns.filterMap Prod.fst
  (input.length, input, Loops.last adapter turns)

/-- The descriptor that the loop meets after the given number of turns. -/
def bdAt (adapter : RxAdapter) (number : Nat) : SmapBd :=
  adapter.bd ((adapter.rxBDIndex + number) % smapBdMaxEntry)

/-- A descriptor given back to the hardware. -/
def emptied (bd : SmapBd) : SmapBd := { bd with ctrlStat := smapBdRxEmpty }

/-- What the network stack should get for a received frame: nothing if it has an
error or no memory was left, else a pbuf of the rounded length with the bytes
found from the frame's pointer on. -/
def delivery (adapter : RxAdapter) (bd : SmapBd) (allocOk : Bool) : Option RxPbuf :=
  if hasAny bd.ctrlStat smapBdRxErrors = false ∧ allocOk = true then
    some {
      length := sizeRounded bd.length
      payload := fun index =>
        if index < sizeRounded bd.length then
          some (adapter.fifo.cells ((bd.pointer + index) % smapRxBufsize))
        else none }
  else none

/-- The state between the turns of the loop. -/
structure Between (adapter : RxAdapter) (number : Nat) (reached : RxAdapter) : Prop where
  few : number ≤ smapBdMaxEntry
  rxBDIndex : reached.rxBDIndex = (adapter.rxBDIndex + number) % 256
  bd : reached.bd = Ring.marked emptied adapter.bd smapBdMaxEntry adapter.rxBDIndex number
  frameCnt : reached.frameCnt + number = adapter.frameCnt
  memory : reached.fifo.cells = adapter.fifo.cells

end RxAdapter

/-- From a word boundary on, the word loop reads the bytes up to the rounded
length. -/
theorem readWords_read (length turns i : Nat) (transfer : Port UInt8 × (Nat → Option UInt8))
    (inside : transfer.1.pointer < smapRxBufsize) (aligned : i % 4 = 0)
    (enough : length ≤ i + 4 * turns) (within : i ≤ sizeRounded length) :
    readWords length turns i transfer =
      readInto smapRxBufsize transfer i (sizeRounded length - i) := by
  induction turns generalizing i transfer with
  | zero =>
    have done : sizeRounded length - i = 0 := by
      unfold sizeRounded
      omega
    rw [readWords, done, DataPort.readInto_zero i inside]
  | succ turns inductionHypothesis =>
    by_cases more : i < length
    · have roundedMore : i + 4 ≤ sizeRounded length := by
        unfold sizeRounded
        omega
      have word : i / 4 * 4 = i := by omega
      have split : 4 + (sizeRounded length - (i + 4)) = sizeRounded length - i := by omega
      have stays : (readInto smapRxBufsize transfer i 4).1.pointer < smapRxBufsize :=
        Nat.mod_lt _ (by decide)
      rw [readWords, if_pos more, word,
        inductionHypothesis (i + 4) _ stays (by omega) (by omega) roundedMore,
        DataPort.readInto_append, split]
    · have done : sizeRounded length - i = 0 := by
        unfold sizeRounded
        omega
      rw [readWords, if_neg more, done, DataPort.readInto_zero i inside]

/-- Whether or not the DMA succeeds, the bytes up to the rounded length are read
from the frame's pointer on.

Proof: the DMA reads whole blocks, if it succeeds, and the loop of words what is left or
everything. In all three cases the reads follow one another up to the rounded length. -/
theorem copyFromFIFO_read (fifo : Port UInt8) (buffer : Nat → Option UInt8) (length rxBdPtr : Nat)
    (dmaOk : Bool) : copyFromFIFO fifo buffer length rxBdPtr dmaOk =
      readInto smapRxBufsize (setReadPtr fifo rxBdPtr, buffer) 0 (sizeRounded length) := by
  have rounded := sizeRounded_bounds length
  have inside : (setReadPtr fifo rxBdPtr).pointer < smapRxBufsize := Nat.mod_lt _ (by decide)
  have words : readWords length length 0 (setReadPtr fifo rxBdPtr, buffer) =
      readInto smapRxBufsize (setReadPtr fifo rxBdPtr, buffer) 0 (sizeRounded length) :=
    readWords_read length length 0 _ inside rfl (by omega) (Nat.zero_le _)
  have nothing (empty : ¬ 0 < length) :
      (setReadPtr fifo rxBdPtr, buffer) =
        readInto smapRxBufsize (setReadPtr fifo rxBdPtr, buffer) 0 (sizeRounded length) := by
    have zero : sizeRounded length = 0 := by
      unfold sizeRounded
      omega
    rw [zero, DataPort.readInto_zero 0 inside]
  unfold copyFromFIFO smapDmaTransferToMem
  dsimp only
  by_cases blocks : 0 < length / 64
  · cases dmaOk with
    | false =>
      have some : 0 < length := by omega
      simpa [blocks, some] using words
    | true =>
      simp only [blocks, ↓reduceIte]
      have split : length / 64 * 64 + (sizeRounded length - length / 64 * 64) =
          sizeRounded length := by omega
      have stays : (readInto smapRxBufsize (setReadPtr fifo rxBdPtr, buffer) 0
          (length / 64 * 64)).1.pointer < smapRxBufsize := Nat.mod_lt _ (by decide)
      have boundary : 0 + length / 64 * 64 = length / 64 * 64 := Nat.zero_add _
      by_cases more : length / 64 * 64 < length
      · rw [if_pos more, readWords_read _ _ _ _ stays (by omega) (by omega) (by omega)]
        conv_rhs => rw [← split, ← DataPort.readInto_append, boundary]
      · have exact64 : length / 64 * 64 = sizeRounded length := by
          unfold sizeRounded
          omega
        rw [if_neg more, exact64]
  · by_cases some : 0 < length
    · simpa [blocks, some] using words
    · simpa [blocks, some] using nothing some

/-- The read pointer as a frame's pointer and an offset, in either register width. -/
theorem setReadPtr_pointer (fifo : Port UInt8) (value : Nat) :
    (setReadPtr fifo value).pointer = value % smapRxBufsize := by
  simp only [setReadPtr, smapRxBufsize]
  omega

namespace RxAdapter

/-- What taking a frame does on each of its three paths. -/
structure TakesFrame (adapter : RxAdapter) (bd : SmapBd) (allocOk : Bool)
    (taken : Option RxPbuf × RxAdapter) : Prop where
  delivered : taken.1 = adapter.delivery bd allocOk
  readPtr : taken.2.fifo.pointer = (bd.pointer + sizeRounded bd.length) % smapRxBufsize
  memory : taken.2.fifo.cells = adapter.fifo.cells
  rxBDIndex : taken.2.rxBDIndex = adapter.rxBDIndex
  bd : taken.2.bd = adapter.bd
  frameCnt : taken.2.frameCnt = adapter.frameCnt

/-- The three ways of a frame (an error, no memory, delivery) all leave the descriptor,
the counter and the read pointer in step. -/
theorem takeFrame_takes (adapter : RxAdapter) {bd : SmapBd} (allocOk dmaOk : Bool)
    (short : bd.length ≤ 2048) : adapter.TakesFrame bd allocOk (adapter.takeFrame bd allocOk dmaOk) := by
  have rounded := sizeRounded_bounds bd.length
  have whole : sizeRounded bd.length % 65536 = sizeRounded bd.length := Nat.mod_eq_of_lt (by omega)
  cases errors : hasAny bd.ctrlStat smapBdRxErrors with
  | true =>
    constructor
    · simp [takeFrame, delivery, errors]
    · simp [takeFrame, errors, whole, setReadPtr_pointer]
    all_goals simp [takeFrame, errors, setReadPtr]
  | false =>
    cases allocOk with
    | false =>
      constructor
      · simp [takeFrame, delivery, errors]
      · simp [takeFrame, errors, whole, setReadPtr_pointer]
      all_goals simp [takeFrame, errors, setReadPtr]
    | true =>
      have copied : adapter.takeFrame bd true dmaOk =
          (some ⟨sizeRounded bd.length, (readInto smapRxBufsize
            (setReadPtr adapter.fifo bd.pointer, fun _ => none) 0 (sizeRounded bd.length)).2⟩,
          { adapter with fifo := (readInto smapRxBufsize
            (setReadPtr adapter.fifo bd.pointer, fun _ => none) 0 (sizeRounded bd.length)).1 }) := by
        simp only [takeFrame, errors, Bool.false_eq_true, ↓reduceIte, whole, copyFromFIFO_read]
      rw [copied]
      refine ⟨?_, ?_, rfl, rfl, rfl, rfl⟩
      · have slots (index : Nat) : (bd.pointer % 65536 + index) % smapRxBufsize =
            (bd.pointer + index) % smapRxBufsize := by
          simp only [smapRxBufsize]
          omega
        simp [delivery, errors, readInto, setReadPtr, slots]
      · simp [readInto, setReadPtr_pointer]

end RxAdapter
end Ps2Eth.Smap
