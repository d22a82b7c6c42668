import Ps2Eth.MacAddress
import Ps2Eth.SmapLinux.Completions
import Ps2Eth.SmapLinux.EmacMode

/-!
# The smap-linux driver from `SMap_Init` on

`SMap_Init` of `smap-linux/smap.c` resets the adapter and sets up its registers,
`SMap_Start` opens it for each interface that `SMapIFInit` sets up, and `SMap_Stop`
closes it. Every wait is a poll that gives up, so the adapter may answer whatever it
likes: what the driver reads of the registers it polls is any sequence of values.

The registers are told by what was last written to them. The mode register is that of
`Phy`, and what `SMap_ClearIRQ` clears is left to the machine of `SMapInterrupt`, whose
start state this is.
-/

namespace Ps2Eth.SmapLinux

/-- `E3_RXMAC_IDLE`: the receiver is idle. -/
def e3RxmacIdle : BitVec 32 := 1#32 <<< 31
/-- `E3_TXMAC_IDLE`: the transmitter is idle. -/
def e3TxmacIdle : BitVec 32 := 1#32 <<< 30
/-- `E3_SOFT_RESET`, which the EMAC clears when it is done. -/
def e3SoftReset : BitVec 32 := 1#32 <<< 29
/-- `E3_TXMAC_ENABLE`: the transmitter is on. -/
def e3TxmacEnable : BitVec 32 := 1#32 <<< 28
/-- `E3_RXMAC_ENABLE`: the receiver is on. -/
def e3RxmacEnable : BitVec 32 := 1#32 <<< 27
/-- `E3_RX_STRIP_PAD`: padding is taken off. -/
def e3RxStripPad : BitVec 32 := 1#32 <<< 31
/-- `E3_RX_STRIP_FCS`: the frame check sequence is taken off. -/
def e3RxStripFcs : BitVec 32 := 1#32 <<< 30
/-- `E3_RX_INDIVID_ADDR`: frames for the own address are received. -/
def e3RxIndividAddr : BitVec 32 := 1#32 <<< 22
/-- `E3_RX_BCAST`: broadcasts are received as well. -/
def e3RxBcast : BitVec 32 := 1#32 <<< 20

/-- `E3_INTR_ALL`, the interrupts of the EMAC that are enabled. -/
def e3IntrAll : BitVec 32 := 0x03ff03fb

/-- `TXFIFO_RESET` and `RXFIFO_RESET`, the same bit in the two FIFO registers. -/
def fifoResetBit : BitVec 32 := 1#32 <<< 0

/-- The registers that are written, but for the mode register. -/
inductive Reg where
  | txFifoCtrl
  | rxFifoCtrl
  | bdMode
  | mode0
  | txMode1
  | rxMode
  | intrStat
  | intrEnable
  | addrHi
  | addrLo
  | interFrameGap
  | txThreshold
  | rxWatermark
deriving DecidableEq

/-- The driver and the adapter: what each read of a polled register returns and how many
were made, what was last written, and the interrupts that are enabled. -/
structure Board where
  phy : Phy
  au8HWAddr : List (BitVec 8)
  tx : SMapCB
  rx : SMapRX
  answers : Nat → BitVec 32
  reads : Nat
  written : Reg → Option (BitVec 32)
  enabled : BitVec 16

namespace Board

/-- A register is written, and holds the value until the next write. -/
def write (board : Board) (reg : Reg) (value : BitVec 32) : Board :=
  { board with written := Function.update board.written reg (some value) }

/-- A read of a polled register. -/
def read (board : Board) : BitVec 32 × Board :=
  (board.answers board.reads, { board with reads := board.reads + 1 })

/-- `SMap_EnableInterrupts` adds to the enabled interrupts, as far as the driver knows
them. -/
def sMapEnableInterrupts (board : Board) (iFlags : BitVec 16) : Board :=
  { board with enabled := board.enabled ||| (iFlags &&& intrBitmsk) }

/-- `SMap_DisableInterrupts` takes away from the enabled interrupts, as far as the driver
knows them. -/
def sMapDisableInterrupts (board : Board) (iFlags : BitVec 16) : Board :=
  { board with enabled := board.enabled &&& ~~~(iFlags &&& intrBitmsk) }

/-- `ClearAllIRQs`, as far as the EMAC is concerned. -/
def clearAllIRQs (board : Board) : Board := board.write .intrStat e3IntrAll

/-- `FIFOReset`, whose result no caller looks at. -/
def fifoReset (board : Board) : Board :=
  let board := (board.write .txFifoCtrl fifoResetBit).write .rxFifoCtrl fifoResetBit
  let tx := Polling.poll read (fun value => !hasBit value fifoResetBit) smapLoopCount board
  (Polling.poll read (fun value => !hasBit value fifoResetBit) smapLoopCount tx.2).2

/-- `RegInit`: interrupts off and cleared, descriptor mode reset, both FIFOs reset. -/
def regInit (board : Board) : Board :=
  ((board.sMapDisableInterrupts intrBitmsk).clearAllIRQs.write .bdMode 0).fifoReset

/-- `EMAC3SoftReset`, whose result no caller looks at. -/
def emac3SoftReset (board : Board) : Board :=
  (Polling.poll read (fun value => !hasBit value e3SoftReset) smapLoopCount
    (board.write .mode0 e3SoftReset)).2

/-- `EMAC3SetDefValue` writes the address that the driver read and the default values of
the other registers. -/
def emac3SetDefValue (board : Board) : Board :=
  let board := board.write .addrHi (emac3SetAddr board.au8HWAddr).1
  let board := board.write .addrLo (emac3SetAddr board.au8HWAddr).2
  let board := board.write .interFrameGap 4
  let board := board.write .rxMode (e3RxStripPad ||| e3RxStripFcs ||| e3RxIndividAddr ||| e3RxBcast)
  let board := board.write .txMode1 (7#32 <<< 27 ||| 15#32 <<< 16)
  let board := board.write .txThreshold ((12#32 &&& 0x1f#32) <<< 27)
  let board := board.write .rxWatermark
    ((16#32 &&& 0x1ff#32) <<< 23 ||| (128#32 &&& 0x1ff#32) <<< 7)
  board.write .intrEnable e3IntrAll

/-- `EMAC3Init`. Where `PhyInit` fails the rest is not done. -/
def emac3Init (board : Board) (iReset : Bool) : Board :=
  let board := board.emac3SoftReset
  let phyInit := Phy.phyInit { board.phy with mode1 := presetMode } iReset
  let board := { board with phy := phyInit.2 }
  if !phyInit.1 || iReset then board
  else (board.sMapDisableInterrupts intrBitmsk).clearAllIRQs.emac3SetDefValue

/-- `EMAC3ReInit`: the EMAC is reset once more, and then gets back the mode that was
negotiated and the default values. -/
def emac3ReInit (board : Board) : Board :=
  let board := board.emac3SoftReset
  { board with phy := { board.phy with mode1 := board.phy.u32TXMode } }.emac3SetDefValue

/-- `Reset`: registers first, then the EMAC with the PHY. -/
def reset (board : Board) (iReset : Bool) : Board := board.regInit.emac3Init iReset

/-- `TXRXEnable`. Both directions are enabled by one write; they are disabled by another,
after which the EMAC is polled until it is idle. -/
def txRxEnable (board : Board) (iEnable : Bool) : Board :=
  if iEnable then board.write .mode0 (e3TxmacEnable ||| e3RxmacEnable)
  else
    let mode0 := board.read
    (Polling.poll read (fun value => hasBit value e3RxmacIdle && hasBit value e3TxmacIdle)
      smapLoopCount (mode0.2.write .mode0 (mode0.1 &&& ~~~(e3TxmacEnable ||| e3RxmacEnable)))).2

/-- `TXBDInit` and `RXBDInit`: pointers and indices to the start, no frame to send, every
receive descriptor empty. -/
def bdInit (board : Board) : Board :=
  { board with
    tx := { board.tx with
      u16PTRStart := 0, u16PTREnd := 0, u8IndexStart := 0, u8IndexEnd := 0
      pBD := fun _ => ⟨0, 0, 0⟩ }
    rx := { board.rx with
      u16RXPTR := 0, u8RXIndex := 0, pRXBD := fun _ => ⟨smapBdRxEmpty, 0, 0⟩ } }

/-- The cleared driver, behind `BaseInit`. -/
def baseInit (board : Board) : Board :=
  { board with
    phy := { board.phy with ops := [], u32Flags := 0, u32TXMode := 0 }
    au8HWAddr := List.replicate 6 0
    tx := { board.tx with
      u16PTRStart := 0, u16PTREnd := 0, u8IndexStart := 0, u8IndexEnd := 0
      u16Size := smapTxBufSize }
    rx := { board.rx with u16RXPTR := 0, u8RXIndex := 0 } }

/-- `SMap_Init` reads the address and stops there if it cannot. Else it sets up the
adapter, the PHY and both rings, and leaves it closed. -/
def sMapInit (board : Board) (readFromEEPROM : BitVec 8 → Nat → List (BitVec 16)) : Bool × Board :=
  let nodeAddr := getNodeAddr readFromEEPROM
  let board := { board.baseInit with au8HWAddr := nodeAddr.2 }
  if !nodeAddr.1 then (false, board)
  else (true, ((board.reset false).txRxEnable false).bdInit.fifoReset.emac3ReInit.bdInit)

/-- `SMap_Start` opens the adapter, unless it is open: interrupts cleared, both directions
and the interrupts enabled. -/
def sMapStart (board : Board) : Board :=
  if hasBit board.phy.u32Flags smapFOpened then board
  else
    let board := (board.clearAllIRQs.txRxEnable true).sMapEnableInterrupts intrBitmsk
    { board with phy := board.phy.setFlags smapFOpened }

/-- `SMap_Stop` closes the adapter, also one that is closed. -/
def sMapStop (board : Board) : Board :=
  let board := ((board.txRxEnable false).sMapDisableInterrupts intrBitmsk).clearAllIRQs
  { board with phy := board.phy.clearFlags smapFOpened }

/-- What `EMAC3SetDefValue` writes to a register. -/
def defValue (au8HWAddr : List (BitVec 8)) : Reg → Option (BitVec 32)
  | .addrHi => some (emac3SetAddr au8HWAddr).1
  | .addrLo => some (emac3SetAddr au8HWAddr).2
  | .interFrameGap => some 4
  | .rxMode => some (e3RxStripPad ||| e3RxStripFcs ||| e3RxIndividAddr ||| e3RxBcast)
  | .txMode1 => some (7#32 <<< 27 ||| 15#32 <<< 16)
  | .txThreshold => some ((12#32 &&& 0x1f#32) <<< 27)
  | .rxWatermark => some ((16#32 &&& 0x1ff#32) <<< 23 ||| (128#32 &&& 0x1ff#32) <<< 7)
  | .intrEnable => some e3IntrAll
  | _ => none

/-- `EMAC3SetDefValue` leaves its own values in the registers that it has one for, and
every other register as it was. -/
theorem emac3SetDefValue_written (board : Board) (reg : Reg) :
    board.emac3SetDefValue.written reg = (defValue board.au8HWAddr reg).or (board.written reg) := by
  cases reg <;> rfl

/-- A function that writes some registers, may read, and leaves the rest alone. -/
structure Writes (regs : List Reg) (before after : Board) : Prop where
  phy : after.phy = before.phy
  au8HWAddr : after.au8HWAddr = before.au8HWAddr
  tx : after.tx = before.tx
  rx : after.rx = before.rx
  enabled : after.enabled = before.enabled
  others : ∀ reg ∉ regs, after.written reg = before.written reg

/-- Two parts of the code that write registers write those of both. -/
theorem Writes.trans {first second third : Board} {early late : List Reg}
    (before : Writes early first second) (after : Writes late second third) :
    Writes (early ++ late) first third := by
  refine ⟨after.phy.trans before.phy, after.au8HWAddr.trans before.au8HWAddr,
    after.tx.trans before.tx, after.rx.trans before.rx, after.enabled.trans before.enabled, ?_⟩
  intro reg outside
  simp only [List.mem_append, not_or] at outside
  exact (after.others reg outside.2).trans (before.others reg outside.1)

/-- A register holds what was written to it last. -/
@[simp] theorem write_written (board : Board) (reg : Reg) (value : BitVec 32) :
    (board.write reg value).written reg = some value := by
  simp [write]

/-- One write touches one register. -/
theorem write_writes (board : Board) (reg : Reg) (value : BitVec 32) :
    Writes [reg] board (board.write reg value) := by
  refine ⟨rfl, rfl, rfl, rfl, rfl, ?_⟩
  intro other outside
  exact Function.update_of_ne (List.ne_of_not_mem_cons outside) _ _

/-- Reading a register touches none. -/
theorem read_writes (board : Board) : Writes [] board board.read.2 :=
  ⟨rfl, rfl, rfl, rfl, rfl, fun _ _ => rfl⟩

/-- A poll writes nothing, however often it reads. -/
theorem poll_writes (test : BitVec 32 → Bool) (turns : Nat) (board : Board) :
    Writes [] board (Polling.poll read test turns board).2 :=
  Polling.poll_kept (Writes [] board) (fun middle polled => polled.trans (read_writes middle)) turns
    ⟨rfl, rfl, rfl, rfl, rfl, fun _ _ => rfl⟩

/-- `FIFOReset` writes the two control registers of the FIFOs. -/
theorem fifoReset_writes (board : Board) :
    Writes [.txFifoCtrl, .rxFifoCtrl] board board.fifoReset := by
  have tx := write_writes board .txFifoCtrl fifoResetBit
  have rx := write_writes (board.write .txFifoCtrl fifoResetBit) .rxFifoCtrl fifoResetBit
  have txDone := poll_writes (fun value => !hasBit value fifoResetBit) smapLoopCount
    ((board.write .txFifoCtrl fifoResetBit).write .rxFifoCtrl fifoResetBit)
  exact ((tx.trans rx).trans txDone).trans (poll_writes _ smapLoopCount _)

/-- Clearing all interrupts writes the status register of the interrupts. -/
theorem clearAllIRQs_writes (board : Board) : Writes [.intrStat] board board.clearAllIRQs :=
  write_writes board .intrStat e3IntrAll

/-- `EMAC3SoftReset` writes MODE0, and then only polls it. -/
theorem emac3SoftReset_writes (board : Board) : Writes [.mode0] board board.emac3SoftReset :=
  (write_writes board .mode0 e3SoftReset).trans (poll_writes _ smapLoopCount _)

/-- `EMAC3SetDefValue` writes the address, the gaps and modes, the thresholds and the
interrupt mask of the EMAC. -/
theorem emac3SetDefValue_writes (board : Board) :
    Writes [.addrHi, .addrLo, .interFrameGap, .rxMode, .txMode1, .txThreshold, .rxWatermark,
      .intrEnable] board board.emac3SetDefValue := by
  constructor
  case others =>
    intro reg outside
    rw [emac3SetDefValue_written]
    cases reg with
    | txFifoCtrl | rxFifoCtrl | bdMode | mode0 | intrStat => rfl
    | _ => simp at outside
  all_goals simp only [emac3SetDefValue, write]

/-- `TXRXEnable` writes MODE0, whichever way it ends. -/
theorem txRxEnable_writes (board : Board) (iEnable : Bool) :
    Writes [.mode0] board (board.txRxEnable iEnable) := by
  cases iEnable with
  | true => exact write_writes board .mode0 (e3TxmacEnable ||| e3RxmacEnable)
  | false =>
    have written := write_writes board.read.2 .mode0
      (board.read.1 &&& ~~~(e3TxmacEnable ||| e3RxmacEnable))
    exact ((read_writes board).trans written).trans (poll_writes _ smapLoopCount _)

/-- The reset leaves the mode register as it was written. -/
theorem emac3SoftReset_mode0 (board : Board) :
    board.emac3SoftReset.written .mode0 = some e3SoftReset := by
  have polled := (poll_writes (fun value => !hasBit value e3SoftReset) smapLoopCount
    (board.write .mode0 e3SoftReset)).others .mode0 List.not_mem_nil
  exact polled.trans (write_written _ _ _)

/-- What is written to the mode register has the two bits of `ENABLE` or has not. -/
theorem txRxEnable_mode0 (board : Board) (iEnable : Bool) :
    ∃ value, (board.txRxEnable iEnable).written .mode0 = some value ∧
      hasBit value e3TxmacEnable = iEnable ∧ hasBit value e3RxmacEnable = iEnable := by
  cases iEnable with
  | true =>
    refine ⟨e3TxmacEnable ||| e3RxmacEnable, write_written board _ _, ?_, ?_⟩
    · decide
    · decide
  | false =>
    have polled := (poll_writes (fun value => hasBit value e3RxmacIdle && hasBit value e3TxmacIdle)
      smapLoopCount (board.read.2.write .mode0
        (board.read.1 &&& ~~~(e3TxmacEnable ||| e3RxmacEnable)))).others .mode0 List.not_mem_nil
    refine ⟨_, polled.trans (write_written _ _ _), ?_, ?_⟩
    · exact hasBit_cleared _ (by decide)
    · exact hasBit_cleared _ (by decide)

/-- What `Reset` does for `RESET_INIT`: `PhyInit` with the preset mode, and no interrupt
of the adapter enabled. -/
structure Prepared (before after : Board) : Prop where
  phy : after.phy = (Phy.phyInit { before.phy with mode1 := presetMode } false).2
  au8HWAddr : after.au8HWAddr = before.au8HWAddr
  u16Size : after.tx.u16Size = before.tx.u16Size
  enabled : after.enabled = before.enabled &&& ~~~intrBitmsk

/-- `RegInit` disables all interrupts of the adapter and then writes those of its
registers that do not belong to the EMAC. -/
theorem regInit_writes (board : Board) : Writes [.intrStat, .bdMode, .txFifoCtrl, .rxFifoCtrl]
    (board.sMapDisableInterrupts intrBitmsk) board.regInit := by
  have cleared := clearAllIRQs_writes (board.sMapDisableInterrupts intrBitmsk)
  have mode := write_writes (board.sMapDisableInterrupts intrBitmsk).clearAllIRQs .bdMode 0
  exact (cleared.trans mode).trans (fifoReset_writes _)

/-- Disabling the same interrupts twice disables them once. -/
theorem disabled_twice (enabled : BitVec 16) :
    (enabled &&& ~~~intrBitmsk) &&& ~~~intrBitmsk = enabled &&& ~~~intrBitmsk := by
  rw [BitVec.and_assoc, BitVec.and_self]

/-- A reset with initialisation leaves the board prepared. -/
theorem reset_prepared (board : Board) : Prepared board (board.reset false) := by
  have early := (regInit_writes board).trans (emac3SoftReset_writes board.regInit)
  have phy : { board.regInit.emac3SoftReset.phy with mode1 := presetMode } =
      { board.phy with mode1 := presetMode } := by
    rw [early.phy]
    rfl
  simp only [reset, emac3Init, phy, Bool.or_false]
  split
  · exact ⟨rfl, early.au8HWAddr, congrArg SMapCB.u16Size early.tx, early.enabled⟩
  · refine ⟨rfl, early.au8HWAddr, congrArg SMapCB.u16Size early.tx, ?_⟩
    calc
      _ = board.regInit.emac3SoftReset.enabled &&& ~~~intrBitmsk := rfl
      _ = board.enabled &&& ~~~intrBitmsk &&& ~~~intrBitmsk := by
        rw [early.enabled]
        rfl
      _ = board.enabled &&& ~~~intrBitmsk := disabled_twice board.enabled

/-- So it is before `EMAC3ReInit`, where the adapter is closed. -/
theorem closed_prepared (board : Board) :
    Prepared board ((board.reset false).txRxEnable false).bdInit.fifoReset := by
  have prepared := board.reset_prepared
  generalize board.reset false = after at prepared ⊢
  have closed := after.txRxEnable_writes false
  generalize after.txRxEnable false = idle at closed ⊢
  have emptied := idle.bdInit.fifoReset_writes
  generalize idle.bdInit.fifoReset = last at emptied ⊢
  constructor
  · exact (emptied.phy.trans closed.phy).trans prepared.phy
  · exact (emptied.au8HWAddr.trans closed.au8HWAddr).trans prepared.au8HWAddr
  · calc
      last.tx.u16Size = idle.bdInit.tx.u16Size := congrArg SMapCB.u16Size emptied.tx
      _ = idle.tx.u16Size := rfl
      _ = after.tx.u16Size := congrArg SMapCB.u16Size closed.tx
      _ = board.tx.u16Size := prepared.u16Size
  · exact (emptied.enabled.trans closed.enabled).trans prepared.enabled

/-- What `EMAC3ReInit` does: the copy of the mode is written back, and the default values
after the reset. -/
structure Restored (before after : Board) : Prop where
  phy : after.phy = { before.phy with mode1 := before.phy.u32TXMode }
  au8HWAddr : after.au8HWAddr = before.au8HWAddr
  u16Size : after.tx.u16Size = before.tx.u16Size
  enabled : after.enabled = before.enabled
  defaults : ∀ reg value, defValue before.au8HWAddr reg = some value →
    after.written reg = some value
  mode0 : after.written .mode0 = some e3SoftReset

/-- `EMAC3ReInit` brings back what a soft reset of the EMAC has cleared. -/
theorem emac3ReInit_restored (board : Board) : Restored board board.emac3ReInit := by
  have reset := board.emac3SoftReset_writes
  have mode0 := board.emac3SoftReset_mode0
  simp only [emac3ReInit]
  generalize board.emac3SoftReset = soft at reset mode0 ⊢
  generalize same : ({ soft with phy := { soft.phy with mode1 := soft.phy.u32TXMode } } : Board) =
    moded
  have valued := moded.emac3SetDefValue_writes
  have defaults := moded.emac3SetDefValue_written
  generalize moded.emac3SetDefValue = last at valued defaults ⊢
  subst same
  constructor
  · rw [valued.phy, reset.phy]
  · exact valued.au8HWAddr.trans reset.au8HWAddr
  · rw [valued.tx, reset.tx]
  · exact valued.enabled.trans reset.enabled
  · intro reg value default
    rw [defaults, reset.au8HWAddr, default]
    rfl
  · exact (defaults .mode0).trans mode0

/-- Where the node address is refused the driver stays cleared, and the adapter is not
touched. -/
theorem sMapInit_refused (board : Board) {readFromEEPROM : BitVec 8 → Nat → List (BitVec 16)}
    (refused : (getNodeAddr readFromEEPROM).1 = false) :
    board.sMapInit readFromEEPROM = (false, board.baseInit) := by
  have cleared : (getNodeAddr readFromEEPROM).2 = List.replicate 6 0 := by
    simp only [getNodeAddr] at refused ⊢
    split
    case isTrue => rfl
    case isFalse sum =>
      rw [if_neg sum] at refused
      cases refused
  simp only [sMapInit, refused, cleared]
  rfl

end Board

/-- What holds from `SMap_Init` on: the address is the one read and stands in its
registers, the default values stand in theirs, and the link left its mode. The
transmitter and the receiver run, and the interrupts of the adapter are enabled, exactly
while it is open; the interrupts of others are never touched. -/
structure Lived (hwaddr : List (BitVec 8)) (before : BitVec 16) (opened : Bool) (board : Board) :
    Prop where
  address : board.au8HWAddr = hwaddr
  defaults : ∀ reg value, Board.defValue hwaddr reg = some value → board.written reg = some value
  mode : ModeLeft board.phy
  flag : hasBit board.phy.u32Flags smapFOpened = opened
  enabled : board.enabled = if opened then before ||| intrBitmsk else before &&& ~~~intrBitmsk
  mode0 : ∃ value, board.written .mode0 = some value ∧ hasBit value e3TxmacEnable = opened ∧
    hasBit value e3RxmacEnable = opened

/-- The rings as the initialisation leaves them. -/
structure Fresh (board : Board) : Prop where
  tx : board.tx = txBdInit
  u8RXIndex : board.rx.u8RXIndex = 0
  pRXBD : ∀ slot, board.rx.pRXBD slot = ⟨smapBdRxEmpty, 0, 0⟩

/-- Descriptors that were just initialised are those the transfer of frames starts with. -/
theorem bdInit_fresh {board : Board} (size : board.tx.u16Size = smapTxBufSize) :
    Fresh board.bdInit := by
  constructor
  · simp only [Board.bdInit, txBdInit, size]
  · rfl
  · exact fun _ => rfl

/-- `SMap_Init` leaves the adapter closed, whatever `PhyInit` returned.

Proof: the calls of `SMap_Init` are followed in their order, each with the lemma that says
what it leaves: base initialisation, the set-up of the closed adapter, the PHY, and the
default values. -/
theorem sMapInit_lived (before : Board) {readFromEEPROM : BitVec 8 → Nat → List (BitVec 16)}
    {board : Board} (done : before.sMapInit readFromEEPROM = (true, board)) :
    Lived (getNodeAddr readFromEEPROM).2 before.enabled false board ∧ Fresh board := by
  have taken : (getNodeAddr readFromEEPROM).1 = true := by
    cases answer : (getNodeAddr readFromEEPROM).1 with
    | true => rfl
    | false =>
      rw [before.sMapInit_refused answer] at done
      simp at done
  simp only [Board.sMapInit, taken, Bool.not_true, Bool.false_eq_true, if_false, Prod.mk.injEq,
    true_and] at done
  generalize cleared :
    ({ before.baseInit with au8HWAddr := (getNodeAddr readFromEEPROM).2 } : Board) = first at done
  have prepared := first.closed_prepared
  generalize ((first.reset false).txRxEnable false).bdInit.fifoReset = closed at done prepared
  have restored := closed.emac3ReInit_restored
  generalize closed.emac3ReInit = last at done restored
  subst done
  have address : closed.au8HWAddr = (getNodeAddr readFromEEPROM).2 := by
    rw [prepared.au8HWAddr, ← cleared]
  have outcome : Phy.Established closed.phy ∨ Phy.Dark closed.phy := by
    rw [prepared.phy, ← cleared]
    exact Phy.phyInit_outcome rfl rfl rfl
  have size : last.tx.u16Size = smapTxBufSize := by
    rw [restored.u16Size, prepared.u16Size, ← cleared]
    rfl
  refine ⟨?_, bdInit_fresh size⟩
  constructor
  · exact restored.au8HWAddr.trans address
  · rw [← address]
    exact restored.defaults
  · have left := modeLeft_of_outcome outcome
    rw [← restored.phy] at left
    exact left
  · have closedFlag : hasBit last.phy.u32Flags smapFOpened = false := by
      rw [restored.phy]
      exact outcome.elim (·.opened) (·.opened)
    exact closedFlag
  · calc
      last.enabled = closed.enabled := restored.enabled
      _ = first.enabled &&& ~~~intrBitmsk := prepared.enabled
      _ = before.enabled &&& ~~~intrBitmsk := by rw [← cleared]; rfl
  · exact ⟨e3SoftReset, restored.mode0, by decide, by decide⟩

/-- What is done with the driver from then on. -/
inductive BoardCall where
  /-- `SMapIFInit`, for an interface that is added. -/
  | smapIFInit
  /-- `SMap_Stop` -/
  | sMapStop
  /-- Frames are sent and received, and `HandleEMAC3Int` writes what it read. -/
  | transfer (tx : SMapCB) (rx : SMapRX) (intrStat : BitVec 32)

/-- The driver, and the addresses of the interfaces. -/
structure Driver where
  board : Board
  hwaddrs : List (List (BitVec 8))

/-- One step in the life of the adapter: an interface is added, the adapter is stopped, or
frames go and interrupts come, about which nothing is assumed. -/
def Driver.step (driver : Driver) : BoardCall → Option Driver
  | .smapIFInit => some {
      board := driver.board.sMapStart
      hwaddrs := driver.hwaddrs ++ [sMapGetMACAddress driver.board.au8HWAddr] }
  | .sMapStop => some { driver with board := driver.board.sMapStop }
  | .transfer tx rx intrStat =>
      some { driver with
        board := { driver.board with tx := tx, rx := rx }.write .intrStat intrStat }

/-- Whether the adapter is open after a call. -/
def BoardCall.opens (opened : Bool) : BoardCall → Bool
  | smapIFInit => true
  | sMapStop => false
  | transfer _ _ _ => opened

/-- It was opened last: of the calls that open or close the adapter the last one opened
it. -/
def openedLast (steps : List (Driver × BoardCall)) : Bool :=
  steps.foldl (fun opened entry => entry.2.opens opened) false

/-- Frames were not sent or received yet. -/
def Quiet (_ : Driver) : BoardCall → Prop
  | .transfer _ _ _ => False
  | _ => True

/-- `SMap_Init` was called, and no interface was added yet. -/
def Begun (readFromEEPROM : BitVec 8 → Nat → List (BitVec 16)) (before : Board)
    (driver : Driver) : Prop :=
  before.sMapInit readFromEEPROM = (true, driver.board) ∧ driver.hwaddrs = []

/-- The machine of `SMapInterrupt` on the adapter, with the memory and the latched
interrupts that it finds. -/
def Board.machine (board : Board) (au32TXBuf : Nat → UInt8) (fifo : DataPort.Port UInt8)
    (intrStat : BitVec 16) : Interrupt.Machine where
  driver := ⟨⟨board.tx, au32TXBuf, fifo, board.phy.linkValid⟩, none, []⟩
  rx := board.rx
  intrStat := intrStat
  rxNext := 0
  place := .outside

section Calls

variable {hwaddr : List (BitVec 8)} {before : BitVec 16} {opened : Bool} {board : Board}

/-- The default values are not in the registers that opening and closing write. -/
theorem default_outside {reg : Reg} {value : BitVec 32}
    (default : Board.defValue hwaddr reg = some value) : reg ∉ [Reg.intrStat, Reg.mode0] := by
  cases reg with
  | intrStat | mode0 => cases default
  | _ => simp

/-- The bits of the adapter disabled on top of either state leave the interrupts of the
other devices. -/
theorem disabled_of (enabled : BitVec 16) (opened : Bool) :
    (if opened then enabled ||| intrBitmsk else enabled &&& ~~~intrBitmsk) &&&
      ~~~(intrBitmsk &&& intrBitmsk) = enabled &&& ~~~intrBitmsk := by
  ext bit inside
  cases opened <;>
    simp only [Bool.false_eq_true, if_true, if_false, BitVec.getElem_or, BitVec.getElem_and,
      BitVec.getElem_not] <;> grind

/-- The bits of the adapter, disabled and then enabled again, are enabled. -/
theorem enabled_of (enabled : BitVec 16) :
    enabled &&& ~~~intrBitmsk ||| (intrBitmsk &&& intrBitmsk) = enabled ||| intrBitmsk := by
  ext bit inside
  simp only [BitVec.getElem_or, BitVec.getElem_and, BitVec.getElem_not]
  grind

/-- A bit that is not among those added stays. -/
theorem hasBit_apart (value : BitVec 32) {added mask : BitVec 32}
    (apart : hasBit added mask = false) :
    hasBit (value ||| added) mask = hasBit value mask := by
  rw [hasBit_or, apart, Bool.or_false]

/-- Whether the driver is open does not count for the link. -/
theorem ModeLeft.reflag {phy : Phy} {flags : BitVec 32} (left : ModeLeft phy)
    (established : hasBit flags smapFLinkestablish = hasBit phy.u32Flags smapFLinkestablish)
    (valid : hasBit flags smapFLinkvalid = hasBit phy.u32Flags smapFLinkvalid) :
    ModeLeft { phy with u32Flags := flags } := by
  obtain ⟨mode, bits, reason⟩ := left.mode
  constructor
  · exact ⟨mode, bits, reason.later ⟨List.prefix_rfl, rfl⟩⟩
  · exact left.unset.trans (by rw [established])
  · intro marked
    refine left.valid ?_
    rw [← marked, Phy.linkValid, Phy.linkValid, valid]

/-- `SMap_Start` on a set-up board keeps it set up, and opened. -/
theorem start_lived (lived : Lived hwaddr before opened board) :
    Lived hwaddr before true board.sMapStart := by
  cases opened with
  | true =>
    simp only [Board.sMapStart, lived.flag, if_true]
    exact lived
  | false =>
    have written := board.clearAllIRQs_writes.trans (board.clearAllIRQs.txRxEnable_writes true)
    have mode0 := board.clearAllIRQs.txRxEnable_mode0 true
    simp only [Board.sMapStart, lived.flag, Bool.false_eq_true, if_false]
    generalize board.clearAllIRQs.txRxEnable true = after at written mode0 ⊢
    constructor
    · exact written.au8HWAddr.trans lived.address
    · intro reg value default
      exact (written.others reg (default_outside default)).trans (lived.defaults reg value default)
    · have mode := lived.mode
      rw [← written.phy] at mode
      exact mode.reflag (hasBit_apart _ (by decide)) (hasBit_apart _ (by decide))
    · exact hasBit_added _ (by decide)
    · have enabled : after.enabled = before &&& ~~~intrBitmsk := written.enabled.trans lived.enabled
      calc
        _ = after.enabled ||| (intrBitmsk &&& intrBitmsk) := rfl
        _ = before ||| intrBitmsk := by rw [enabled, enabled_of]
    · exact mode0

/-- `SMap_Stop` on a set-up board keeps it set up, and closed. -/
theorem stop_lived (lived : Lived hwaddr before opened board) :
    Lived hwaddr before false board.sMapStop := by
  have closed := board.txRxEnable_writes false
  have mode0 := board.txRxEnable_mode0 false
  simp only [Board.sMapStop]
  generalize board.txRxEnable false = after at closed mode0 ⊢
  have cleared := (after.sMapDisableInterrupts intrBitmsk).clearAllIRQs_writes
  generalize (after.sMapDisableInterrupts intrBitmsk).clearAllIRQs = last at cleared ⊢
  constructor
  · exact (cleared.au8HWAddr.trans closed.au8HWAddr).trans lived.address
  · intro reg value default
    have outside := default_outside default
    calc
      last.written reg = after.written reg := cleared.others reg (by grind)
      _ = board.written reg := closed.others reg (by grind)
      _ = some value := lived.defaults reg value default
  · have mode := lived.mode
    rw [← closed.phy] at mode
    have same : last.phy = after.phy := cleared.phy
    rw [same]
    exact mode.reflag (hasBit_kept _ (by decide)) (hasBit_kept _ (by decide))
  · exact hasBit_cleared _ (by decide)
  · have enabled : after.enabled = _ := closed.enabled.trans lived.enabled
    calc
      _ = after.enabled &&& ~~~(intrBitmsk &&& intrBitmsk) := cleared.enabled
      _ = before &&& ~~~intrBitmsk := by rw [enabled, disabled_of]
  · obtain ⟨value, written, bits⟩ := mode0
    exact ⟨value, (cleared.others .mode0 (by simp)).trans written, bits⟩

/-- The transfer of frames touches nothing that belongs to the set-up. -/
theorem transfer_lived (lived : Lived hwaddr before opened board) (tx : SMapCB) (rx : SMapRX)
    (intrStat : BitVec 32) :
    Lived hwaddr before opened ({ board with tx := tx, rx := rx }.write .intrStat intrStat) := by
  have written := Board.write_writes { board with tx := tx, rx := rx } .intrStat intrStat
  obtain ⟨value, last, bits⟩ := lived.mode0
  constructor
  · exact lived.address
  · intro reg value default
    have outside := default_outside default
    exact (written.others reg (by grind)).trans (lived.defaults reg value default)
  · exact lived.mode
  · exact lived.flag
  · exact lived.enabled
  · exact ⟨value, (written.others .mode0 (by simp)).trans last, bits⟩

/-- `SMap_Start` leaves fresh descriptors as they are. -/
theorem Fresh.start (fresh : Fresh board) : Fresh board.sMapStart := by
  unfold Board.sMapStart
  split
  · exact fresh
  · exact ⟨fresh.tx, fresh.u8RXIndex, fresh.pRXBD⟩

/-- `SMap_Stop` leaves fresh descriptors as they are. -/
theorem Fresh.stop (fresh : Fresh board) : Fresh board.sMapStop := by
  have closed := board.txRxEnable_writes false
  have tx : board.sMapStop.tx = board.tx := closed.tx
  have rx : board.sMapStop.rx = board.rx := closed.rx
  constructor
  · rw [tx, fresh.tx]
  · rw [rx, fresh.u8RXIndex]
  · rw [rx]
    exact fresh.pRXBD

/-- Fresh rings are where the machine of `SMapInterrupt` starts. -/
theorem Fresh.started (fresh : Fresh board) (au32TXBuf : Nat → UInt8) (fifo : DataPort.Port UInt8)
    (intrStat : BitVec 16) : Interrupt.Started (board.machine au32TXBuf fifo intrStat) where
  driver := ⟨fresh.tx, rfl, rfl⟩
  u8RXIndex := fresh.u8RXIndex
  pRXBD := fresh.pRXBD
  rxNext := rfl
  place := rfl

end Calls

/-- The last call decides whether the adapter is open, unless it only transferred frames. -/
theorem openedLast_snoc (steps : List (Driver × BoardCall)) (driver : Driver) (call : BoardCall) :
    openedLast (steps ++ [(driver, call)]) = call.opens (openedLast steps) := by
  simp [openedLast]

/-- What every call keeps: the board as it was set up, the address of every interface, and
the rings while no frames went. -/
structure Kept (hwaddr : List (BitVec 8)) (before : BitVec 16) (steps : List (Driver × BoardCall))
    (driver : Driver) : Prop where
  lived : Lived hwaddr before (openedLast steps) driver.board
  hwaddrs : ∀ given ∈ driver.hwaddrs, given = hwaddr
  fresh : Runs.Meets Quiet steps → Fresh driver.board

/-- Every step keeps the board set up and every interface at the address read. -/
theorem step_kept {hwaddr : List (BitVec 8)} {before : BitVec 16}
    {steps : List (Driver × BoardCall)} {driver next : Driver} {call : BoardCall}
    (kept : Kept hwaddr before steps driver)
    (taken : driver.step call = some next) :
    Kept hwaddr before (steps ++ [(driver, call)]) next := by
  have lived := kept.lived
  have early : Runs.Meets Quiet (steps ++ [(driver, call)]) → Fresh driver.board := by
    intro quiet
    exact kept.fresh ((Runs.meets_snoc _ _ _ _).mp quiet).1
  cases call with
  | smapIFInit =>
    obtain rfl := Option.some.inj taken
    refine ⟨?_, ?_, fun quiet => (early quiet).start⟩
    · rw [openedLast_snoc]
      exact start_lived lived
    · intro given member
      rcases List.mem_append.mp member with earlier | last
      · exact kept.hwaddrs given earlier
      · rw [List.mem_singleton.mp last]
        exact lived.address
  | sMapStop =>
    obtain rfl := Option.some.inj taken
    refine ⟨?_, kept.hwaddrs, fun quiet => (early quiet).stop⟩
    rw [openedLast_snoc]
    exact stop_lived lived
  | transfer tx rx intrStat =>
    obtain rfl := Option.some.inj taken
    refine ⟨?_, kept.hwaddrs, fun quiet => ?_⟩
    · rw [openedLast_snoc]
      exact transfer_lived lived tx rx intrStat
    · exact ((Runs.meets_snoc _ _ _ _).mp quiet).2.elim

/-- Whatever the adapter answers to every poll, from a `SMap_Init` that returned on the
adapter is as it was set up: the address and the default values stand, and it runs with
its interrupts enabled exactly while it was opened last. Every interface is given the
address in the registers, and as long as no frames went the rings are those that
`SMapInterrupt` starts with.

Proof: by induction on the calls. Each leaves the address and the default values and
either opens the adapter or does not, whatever the registers that it polls answer; that is
what the last call decides. -/
theorem lives_as_set_up {readFromEEPROM : BitVec 8 → Nat → List (BitVec 16)} {before : Board}
    {steps : List (Driver × BoardCall)} {driver : Driver}
    (run : Runs.Run Driver.step (Begun readFromEEPROM before) steps driver) :
    Lived (getNodeAddr readFromEEPROM).2 before.enabled (openedLast steps) driver.board ∧
      (∀ given ∈ driver.hwaddrs, given = (getNodeAddr readFromEEPROM).2) ∧
      (Runs.Meets Quiet steps → ∀ au32TXBuf fifo intrStat,
        Interrupt.Started (driver.board.machine au32TXBuf fifo intrStat)) := by
  have kept : Kept (getNodeAddr readFromEEPROM).2 before.enabled steps driver := by
    refine Runs.run_invariant (Kept _ _) ?_ ?_ run
    · rintro driver ⟨done, none⟩
      obtain ⟨lived, fresh⟩ := sMapInit_lived before done
      refine ⟨lived, ?_, fun _ => fresh⟩
      rw [none]
      simp
    · exact fun _ _ _ _ kept taken => step_kept kept taken
  refine ⟨kept.lived, kept.hwaddrs, ?_⟩
  intro quiet au32TXBuf fifo intrStat
  exact (kept.fresh quiet).started au32TXBuf fifo intrStat

/-- An adapter that is idle and ready, with a PHY that answers every read with full duplex
at 100 Mbit/s. -/
def idleBoard : Board where
  phy := ⟨fun _ => 0x00358000, 0, [], 0, 0, 0, 0x12⟩
  au8HWAddr := []
  tx := txBdInit
  rx := ⟨5, 0, fun _ => ⟨0, 0, 0⟩, ⟨fun _ => 0, 0⟩, 0⟩
  answers := fun _ => e3RxmacIdle ||| e3TxmacIdle
  reads := 0
  written := fun _ => none
  enabled := 0x81

/-- An EEPROM with an address and its sum. -/
def idleEeprom (address : BitVec 8) (words : Nat) : List (BitVec 16) :=
  if address = 0 ∧ words = 3 then [0x2211, 0x4433, 0x6655] else [0xcc99]

/-- Opened, closed and opened again. -/
theorem lives_as_set_up_reopened : ∃ steps driver,
    Runs.Run Driver.step (Begun idleEeprom idleBoard) steps driver ∧
      Lived [0x11, 0x22, 0x33, 0x44, 0x55, 0x66] 0x81 true driver.board ∧
      driver.board.enabled = 0xfd ∧ driver.hwaddrs.length = 2 := by
  have begun : Begun idleEeprom idleBoard ⟨(idleBoard.sMapInit idleEeprom).2, []⟩ :=
    ⟨Prod.ext (by decide +kernel) rfl, rfl⟩
  obtain ⟨steps, driver, run, opened, enabled, given⟩ := Runs.run_of_performed Driver.step
    (fun steps driver => openedLast steps = true ∧ driver.board.enabled = 0xfd ∧
      driver.hwaddrs.length = 2)
    begun [.smapIFInit, .sMapStop, .smapIFInit] (by decide +kernel)
  have lived := (lives_as_set_up run).1
  rw [opened] at lived
  refine ⟨steps, driver, run, ?_, enabled, given⟩
  have address : (getNodeAddr idleEeprom).2 = [0x11, 0x22, 0x33, 0x44, 0x55, 0x66] := by
    decide +kernel
  rw [← address]
  exact lived

end Ps2Eth.SmapLinux
