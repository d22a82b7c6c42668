import Ps2Eth.Lib.DataPort
import Ps2Eth.Smap.PacketQueue

/-!
# Copying frames to the transmit FIFO of the smap driver

`SmapDmaTransfer`, `CopyToFIFO` and the bodies of the loops of `HandleTxReqs`
and `HandleTxIntr`, from `smap/xfer.c` and `smap/smap.c`, over the driver data
they use and the hardware they drive: the ring of 64 buffer descriptors and the
4 KiB transmit memory behind the data port.

`smapregs.h` is not part of the repository. The sizes are those the driver is
written for; the base address and the descriptor bits are the ones that
`smap-linux/smap.c` defines for the same chip.
-/

namespace Ps2Eth.Smap

open DataPort (Port)

/-- `SMAP_TX_BUFSIZE`, the size of the transmit FIFO, round which its pointer counts. -/
def smapTxBufsize : Nat := 4096

/-- `SMAP_TX_BASE`, where the transmit FIFO lies for the pointers of descriptors. -/
def smapTxBase : Nat := 0x1000

/-- `SMAP_BD_MAX_ENTRY`, the number of transmit and of receive descriptors. -/
def smapBdMaxEntry : Nat := 64

/-- `SMAP_BD_TX_READY`: set by the driver, cleared by the hardware. -/
def smapBdTxReady : BitVec 16 := 1#16 <<< 15
/-- `SMAP_BD_TX_GENFCS`: the hardware adds the frame check sequence. -/
def smapBdTxGenfcs : BitVec 16 := 1#16 <<< 9
/-- `SMAP_BD_TX_GENPAD`: the hardware adds padding. -/
def smapBdTxGenpad : BitVec 16 := 1#16 <<< 8
/-- `SMAP_BD_TX_LOSSCR`: loss of the carrier. -/
def smapBdTxLosscr : BitVec 16 := 1#16 <<< 7
/-- `SMAP_BD_TX_EDEFER`: excessive deferral, counted among the errors. -/
def smapBdTxEdefer : BitVec 16 := 1#16 <<< 6
/-- `SMAP_BD_TX_ECOLL`: excessive collisions, counted among the errors. -/
def smapBdTxEcoll : BitVec 16 := 1#16 <<< 5
/-- `SMAP_BD_TX_LCOLL`: a late collision, counted among the errors. -/
def smapBdTxLcoll : BitVec 16 := 1#16 <<< 4
/-- `SMAP_BD_TX_MCOLL`: several collisions, counted among the errors. -/
def smapBdTxMcoll : BitVec 16 := 1#16 <<< 3
/-- `SMAP_BD_TX_SCOLL`: a single collision, counted among the errors. -/
def smapBdTxScoll : BitVec 16 := 1#16 <<< 2
/-- `SMAP_BD_TX_UNDERRUN`: the FIFO ran empty. -/
def smapBdTxUnderrun : BitVec 16 := 1#16 <<< 1

/-- `ctrl_stat & mask`, as a condition. -/
def hasAny (ctrlStat mask : BitVec 16) : Bool := ctrlStat &&& mask != 0

/-- A buffer descriptor: what is to be done with a frame or was, its length, and where it
lies. -/
structure SmapBd where
  ctrlStat : BitVec 16
  length : Nat
  pointer : Nat

/-- The descriptor still belongs to the hardware. -/
def SmapBd.ready (bd : SmapBd) : Bool := hasAny bd.ctrlStat smapBdTxReady

/-- The transmit counters of `struct RuntimeStats`. -/
structure RuntimeStats where
  txDroppedFrameCount : BitVec 32
  txErrorCount : BitVec 32
  txFrameLOSSCRCount : BitVec 16
  txFrameEDEFERCount : BitVec 16
  txFrameCollisionCount : BitVec 16
  txFrameUnderrunCount : BitVec 16

/-- The fields of `struct SmapDriverData` on the transmit path. -/
structure SmapDriverData where
  txBufferSpaceAvailable : Nat
  numPacketsInTx : Nat
  txBDIndex : Nat
  txDNVBDIndex : Nat
  packetToSend : Option PbufPtr
  linkStatus : Bool
  runtimeStats : RuntimeStats

/-- The driver data with the transmit half of the hardware. -/
structure Adapter where
  drv : SmapDriverData
  bd : Nat → SmapBd
  fifo : Port UInt8

/-- The driver data start out zero; `smap_init` clears the descriptors and gives
the whole transmit memory to the driver. Its FIFO reset returns the write
pointer to zero and does not clear the memory. -/
def smapInit (memory : Nat → UInt8) : Adapter where
  drv := {
    txBufferSpaceAvailable := smapTxBufsize
    numPacketsInTx := 0
    txBDIndex := 0
    txDNVBDIndex := 0
    packetToSend := none
    linkStatus := false
    runtimeStats := ⟨0, 0, 0, 0, 0, 0⟩ }
  bd := fun _ => ⟨0, 0, 0⟩
  fifo := ⟨memory, 0⟩

/-- `(length+3)&~3`: a length rounded up to words, as it is copied and charged. -/
def sizeRounded (length : Nat) : Nat := (length + 3) / 4 * 4

/-- The rounded length is the next multiple of four. -/
theorem sizeRounded_bounds (length : Nat) :
    length ≤ sizeRounded length ∧ sizeRounded length < length + 4 ∧ sizeRounded length % 4 = 0 := by
  unfold sizeRounded
  omega

/-- `SmapDmaTransfer` towards the device: blocks of 64 bytes, all of them moved
when `dev9DmaTransfer` succeeds and none when it fails. -/
def smapDmaTransfer (fifo : Port UInt8) (buffer : Nat → UInt8) (size : Nat) (dmaOk : Bool) :
    Port UInt8 × Nat :=
  let numBlocks := size / 64
  if 0 < numBlocks then
    if dmaOk then
      (fifo.push smapTxBufsize ((List.range (numBlocks * 64)).map buffer), numBlocks * 64)
    else (fifo, 0)
  else (fifo, 0)

/-- The word loop of `CopyToFIFO` from byte `i` on. Every turn moves one word,
so `length` turns are enough. -/
def copyWords (buffer : Nat → UInt8) (length : Nat) : Nat → Nat → Port UInt8 → Port UInt8
  | 0, _, fifo => fifo
  | turns + 1, i, fifo =>
      if i < length then
        copyWords buffer length turns (i + 4)
          (fifo.push smapTxBufsize ((List.range' (i / 4 * 4) 4).map buffer))
      else fifo

/-- `CopyToFIFO`. Whole blocks are left to the DMA, and the words that remain are written
one by one. -/
def copyToFIFO (fifo : Port UInt8) (buffer : Nat → UInt8) (length : Nat) (dmaOk : Bool) :
    Port UInt8 :=
  let moved := smapDmaTransfer fifo buffer length dmaOk
  copyWords buffer length length moved.2 moved.1

/-- From a word boundary on, the word loop pushes the bytes up to the rounded
length. -/
theorem copyWords_push (buffer : Nat → UInt8) (length turns i : Nat) (fifo : Port UInt8)
    (aligned : i % 4 = 0) (enough : length ≤ i + 4 * turns) (within : i ≤ sizeRounded length) :
    copyWords buffer length turns i fifo =
      fifo.push smapTxBufsize ((List.range' i (sizeRounded length - i)).map buffer) := by
  induction turns generalizing i fifo with
  | zero =>
    have done : sizeRounded length - i = 0 := by
      unfold sizeRounded
      omega
    simp [copyWords, done]
  | succ turns inductionHypothesis =>
    by_cases more : i < length
    · have roundedMore : i + 4 ≤ sizeRounded length := by
        unfold sizeRounded
        omega
      have word : i / 4 * 4 = i := by omega
      have split : sizeRounded length - i = 4 + (sizeRounded length - (i + 4)) := by omega
      rw [copyWords, if_pos more, word,
        inductionHypothesis (i + 4) _ (by omega) (by omega) roundedMore, ← DataPort.push_append,
        ← List.map_append, List.range'_append_1, ← split]
    · have done : sizeRounded length - i = 0 := by
        unfold sizeRounded
        omega
      simp [copyWords, more, done]

/-- Whether or not the DMA succeeds, the FIFO receives the frame's bytes up to
the rounded length, which is what the driver charges for it. -/
theorem copyToFIFO_push (fifo : Port UInt8) (buffer : Nat → UInt8) (length : Nat) (dmaOk : Bool) :
    copyToFIFO fifo buffer length dmaOk =
      fifo.push smapTxBufsize ((List.range (sizeRounded length)).map buffer) := by
  have rounded := sizeRounded_bounds length
  have words : copyWords buffer length length 0 fifo =
      fifo.push smapTxBufsize ((List.range (sizeRounded length)).map buffer) := by
    rw [copyWords_push buffer length length 0 fifo rfl (by omega) (Nat.zero_le _),
      List.range_eq_range', Nat.sub_zero]
  unfold copyToFIFO smapDmaTransfer
  dsimp only
  by_cases blocks : 0 < length / 64
  · cases dmaOk with
    | false => simpa [blocks] using words
    | true =>
      have boundary : length / 64 * 64 ≤ sizeRounded length := by omega
      have split : sizeRounded length = length / 64 * 64 + (sizeRounded length - length / 64 * 64) := by
        omega
      simp only [blocks, ↓reduceIte]
      rw [copyWords_push _ _ _ _ _ (by omega) (by omega) boundary, ← DataPort.push_append,
        ← List.map_append, List.range_eq_range', List.range_eq_range']
      conv_rhs => rw [split, ← List.range'_append_1]
      simp
  · simpa [blocks] using words

namespace Adapter

/-- The descriptors in flight, oldest first. -/
def inFlight (adapter : Adapter) : List SmapBd :=
  Ring.window adapter.bd smapBdMaxEntry adapter.drv.txDNVBDIndex adapter.drv.numPacketsInTx

/-- The frame the hardware finds behind a descriptor. -/
def frameOf (adapter : Adapter) (bd : SmapBd) : List UInt8 :=
  Ring.window adapter.fifo.cells smapTxBufsize bd.pointer bd.length

/-- The descriptor and counter updates of `HandleTxReqs` for a copied frame. -/
def queueBd (adapter : Adapter) (length bdDataPtr : Nat) : Adapter :=
  { adapter with
    bd := Function.update adapter.bd (adapter.drv.txBDIndex % smapBdMaxEntry) {
      ctrlStat := smapBdTxReady ||| smapBdTxGenfcs ||| smapBdTxGenpad
      length := length % 65536
      pointer := bdDataPtr }
    drv := { adapter.drv with
      txBDIndex := (adapter.drv.txBDIndex + 1) % 256
      numPacketsInTx := (adapter.drv.numPacketsInTx + 1) % 256
      txBufferSpaceAvailable := adapter.drv.txBufferSpaceAvailable - sizeRounded length } }

/-- The error counters `HandleTxIntr` keeps for a finished descriptor. -/
def countErrors (stats : RuntimeStats) (ctrlStat : BitVec 16) : RuntimeStats :=
  if hasAny ctrlStat (smapBdTxUnderrun ||| smapBdTxLcoll ||| smapBdTxEcoll ||| smapBdTxEdefer |||
      smapBdTxLosscr) then
    { txErrorCount := stats.txErrorCount + BitVec.ofNat 32 ((List.range 16).countP ctrlStat.getLsbD)
      txDroppedFrameCount := stats.txDroppedFrameCount + 1
      txFrameLOSSCRCount :=
        if hasAny ctrlStat smapBdTxLosscr then stats.txFrameLOSSCRCount + 1
        else stats.txFrameLOSSCRCount
      txFrameEDEFERCount :=
        if hasAny ctrlStat smapBdTxEdefer then stats.txFrameEDEFERCount + 1
        else stats.txFrameEDEFERCount
      txFrameCollisionCount :=
        if hasAny ctrlStat (smapBdTxScoll ||| smapBdTxMcoll ||| smapBdTxLcoll ||| smapBdTxEcoll) then
          stats.txFrameCollisionCount + 1
        else stats.txFrameCollisionCount
      txFrameUnderrunCount :=
        if hasAny ctrlStat smapBdTxUnderrun then stats.txFrameUnderrunCount + 1
        else stats.txFrameUnderrunCount }
  else stats

/-- One turn of `HandleTxIntr`: reap the oldest descriptor in flight. The loop
ends at `none`, with nothing in flight or the oldest still being sent. -/
def reap (adapter : Adapter) : Option (Adapter) :=
  if 0 < adapter.drv.numPacketsInTx then
    let bd := adapter.bd (adapter.drv.txDNVBDIndex % smapBdMaxEntry)
    if bd.ready then none
    else some { adapter with
      drv := { adapter.drv with
        runtimeStats := countErrors adapter.drv.runtimeStats bd.ctrlStat
        txBufferSpaceAvailable := (adapter.drv.txBufferSpaceAvailable + sizeRounded bd.length) % 2 ^ 32
        txDNVBDIndex := (adapter.drv.txDNVBDIndex + 1) % 256
        numPacketsInTx := adapter.drv.numPacketsInTx - 1 } }
  else none

/-- The hardware finishes with a descriptor: it rewrites `ctrl_stat`, the ready
bit cleared, and nothing else. -/
def complete (adapter : Adapter) (index : Nat) (ctrlStat : BitVec 16) : Adapter :=
  { adapter with
    bd := Function.update adapter.bd (index % smapBdMaxEntry)
      { adapter.bd (index % smapBdMaxEntry) with ctrlStat := ctrlStat &&& ~~~smapBdTxReady } }

end Adapter
end Ps2Eth.Smap
