import Ps2Eth.Lib.Loops
import Ps2Eth.SmapLinux.TxRing

/-!
# Reception in the smap-linux driver

`HandleRXInt` and `CopyFromFIFO` of `smap-linux/smap.c`. The loop of `HandleRXInt`
counts nothing. It ends at a descriptor without a frame, and it gives back each
descriptor it has seen to, so it meets such a one after a whole round at the
latest.

Each turn calls `pbuf_alloc` at most once; what it answers is told by the number
of the turn.
-/

namespace Ps2Eth.SmapLinux

open DataPort (Port readInto)

/-- `SMAP_RXBUFBASE`, where the receive memory lies for the pointers of descriptors. -/
def smapRxBufBase : Nat := 0x4000

/-- `SMAP_RXBUFSIZE`, round which the receive memory is read. -/
def smapRxBufSize : Nat := 16 * 1024

/-- `SMAP_RXMAXSIZE`, the longest frame that is taken, its checksum included. -/
def smapRxMaxSize : Nat := 6 + 6 + 2 + 1500 + 4

/-- `SMAP_RXMINSIZE`, the length of an Ethernet header. -/
def smapRxMinSize : Nat := 14

/-- `SMAP_BD_RX_EMPTY`, which the driver sets and the hardware clears. -/
def smapBdRxEmpty : BitVec 16 := 1#16 <<< 15

/-- `SMAP_BD_RX_ERRMASK`: bits 0 to 9. -/
def smapBdRxErrmask : BitVec 16 := 0x3ff#16

/-- The hardware has not filled the descriptor. -/
def SMapBD.empty (bd : SMapBD) : Bool := bd.ctrlStat &&& smapBdRxEmpty != 0

/-- A pbuf of the pool with a received frame: `tot_len` and the bytes written to
its payload, which has room for three more. -/
structure RxPBuf where
  totLen : Nat
  payload : Nat → Option UInt8

/-- The receive side of the driver and the hardware. The port's pointer is
`SMAP_RXFIFO_RD_PTR`, `frameDec` counts the writes to `SMAP_RXFIFO_FRAME_DEC`. -/
structure SMapRX where
  u8RXIndex : Nat
  u16RXPTR : Nat
  pRXBD : Nat → SMapBD
  fifo : Port UInt8
  frameDec : Nat

/-- `HandleRXInt` between two turns: the driver and the local `iNoError`. -/
structure RXPass where
  smap : SMapRX
  iNoError : Bool

/-- `CopyFromFIFO`: words from the read pointer on, up to the rounded length. -/
def copyFromFIFO (smap : SMapRX) (totLen : Nat) : Port UInt8 × (Nat → Option UInt8) :=
  (List.range (roundUp totLen / 4)).foldl
    (fun transfer word => readInto smapRxBufSize transfer (4 * word) 4)
    ({ smap.fifo with pointer := smap.u16RXPTR }, fun _ => none)

/-- The test of `HandleRXInt` for a frame worth receiving. -/
def SMapBD.acceptable (bd : SMapBD) : Bool :=
  bd.ctrlStat &&& smapBdRxErrmask == 0 && (smapRxMinSize ≤ bd.length && bd.length ≤ smapRxMaxSize)

namespace RXPass

/-- Fetch the frame of a descriptor: the pbuf given to `SMapLowLevelInput`, if
there is one, and what has changed. -/
def fetch (pass : RXPass) (bd : SMapBD) (allocOk : Bool) : Option RxPBuf × RXPass :=
  if bd.acceptable then
    if allocOk then
      let smap := { pass.smap with
        u16RXPTR := (bd.pointer - smapRxBufBase) % smapRxBufSize / 4 * 4 }
      let copied := copyFromFIFO smap bd.length
      (some ⟨bd.length, copied.2⟩, { pass with smap := { smap with fifo := copied.1 } })
    else (none, { pass with iNoError := false })
  else (none, { pass with iNoError := false })

/-- The end of a turn: the descriptor is given back and the index moves on. -/
def release (pass : RXPass) : RXPass :=
  let index := pass.smap.u8RXIndex
  { pass with smap := { pass.smap with
    frameDec := pass.smap.frameDec + 1
    pRXBD := Function.update pass.smap.pRXBD index
      { pass.smap.pRXBD index with ctrlStat := smapBdRxEmpty }
    u8RXIndex := smapBdNext index } }

/-- One turn of the loop of `HandleRXInt`, which ends at `none`. -/
def rxTurn (pass : RXPass) (allocOk : Bool) : Option (Option RxPBuf × RXPass) :=
  let bd := pass.smap.pRXBD pass.smap.u8RXIndex
  if bd.empty then none
  else
    let fetched := pass.fetch bd allocOk
    some (fetched.1, fetched.2.release)

end RXPass

namespace SMapRX

/-- The turns of `HandleRXInt`, at most so many as are allowed. -/
def rxTurns (smap : SMapRX) (allocOk : Nat → Bool) (bound : Nat) :
    List (Option RxPBuf × RXPass) :=
  Loops.turns (fun number pass => pass.rxTurn (allocOk number)) bound 0 ⟨smap, true⟩

/-- The descriptor that the loop meets after the given number of turns. -/
def bdAt (smap : SMapRX) (number : Nat) : SMapBD :=
  smap.pRXBD ((smap.u8RXIndex + number) % smapBdMaxEntry)

/-- A descriptor given back to the hardware. -/
def emptied (bd : SMapBD) : SMapBD := { bd with ctrlStat := smapBdRxEmpty }

/-- What the network stack should get for a received frame: nothing if it is not
acceptable or no memory was left, else a pbuf of its exact length with the bytes
found from its pointer on, to the end of the last word. -/
def delivery (smap : SMapRX) (bd : SMapBD) (allocOk : Bool) : Option RxPBuf :=
  if bd.acceptable = true ∧ allocOk = true then
    some {
      totLen := bd.length
      payload := fun index =>
        if index < roundUp bd.length then
          some (smap.fifo.cells ((bd.pointer + index) % smapRxBufSize))
        else none }
  else none

/-- The state between the turns of the loop. -/
structure Between (smap : SMapRX) (allocOk : Nat → Bool) (number : Nat) (pass : RXPass) : Prop where
  few : number ≤ smapBdMaxEntry
  u8RXIndex : pass.smap.u8RXIndex = (smap.u8RXIndex + number) % smapBdMaxEntry
  pRXBD : pass.smap.pRXBD = Ring.marked emptied smap.pRXBD smapBdMaxEntry smap.u8RXIndex number
  frameDec : pass.smap.frameDec = smap.frameDec + number
  memory : pass.smap.fifo.cells = smap.fifo.cells
  iNoError : pass.iNoError = true ↔
    ∀ earlier < number, (smap.delivery (smap.bdAt earlier) (allocOk earlier)).isSome = true

end SMapRX

/-- The words read are the bytes up to the rounded length. -/
theorem copyFromFIFO_read (smap : SMapRX) (totLen : Nat) (inside : smap.u16RXPTR < smapRxBufSize) :
    copyFromFIFO smap totLen = readInto smapRxBufSize
      ({ smap.fifo with pointer := smap.u16RXPTR }, fun _ => none) 0 (roundUp totLen) := by
  have whole : 4 * (roundUp totLen / 4) = roundUp totLen := by
    simp only [roundUp]
    omega
  rw [copyFromFIFO, DataPort.readInto_chunks 4 _ inside, whole]

namespace SMapRX

/-- A descriptor given back to the hardware is marked empty. -/
@[simp] theorem emptied_empty (bd : SMapBD) : (emptied bd).empty = true := by
  change (smapBdRxEmpty &&& smapBdRxEmpty != 0) = true
  decide

/-- After a whole round the next descriptor is one that was given back. -/
theorem Between.round {smap : SMapRX} {allocOk : Nat → Bool} {pass : RXPass}
    (between : smap.Between allocOk smapBdMaxEntry pass) :
    (pass.smap.pRXBD pass.smap.u8RXIndex).empty = true := by
  rw [between.pRXBD, between.u8RXIndex, Ring.marked_full _ _ (by decide)]
  exact emptied_empty _

end SMapRX
end Ps2Eth.SmapLinux
