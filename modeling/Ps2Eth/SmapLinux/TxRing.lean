import Ps2Eth.Lib.DataPort
import Ps2Eth.Lib.Runs

/-!
# The transmit ring of the smap-linux driver

`SMap_Send` and `HandleTXInt` of `smap-linux/smap.c` over the control block of
the transmit side: a start and an end index into 64 buffer descriptors, and a
start and an end pointer into 4 KiB of transmit memory. Nothing counts the
frames or the bytes in use; both are read off the two pairs.

The machine adds one thing the driver does not store: the lengths of the frames
sent and not yet reaped.
-/

namespace Ps2Eth.SmapLinux

open DataPort (Port)

/-- `SMAP_TXBUFBASE`, where the transmit memory lies for the pointers of descriptors. -/
def smapTxBufBase : Nat := 0x1000

/-- `SMAP_TXBUFSIZE`, round which the pointers of the ring count. -/
def smapTxBufSize : Nat := 4 * 1024

/-- `SMAP_TXMAXSIZE`, the longest frame that is sent. -/
def smapTxMaxSize : Nat := 6 + 6 + 2 + 1500

/-- `SMAP_BD_MAX_ENTRY`, the number of descriptors in the ring. -/
def smapBdMaxEntry : Nat := 64

/-- `SMAP_BD_NEXT`: the index behind this one, from the last back to the first. -/
def smapBdNext (index : Nat) : Nat := if index < smapBdMaxEntry - 1 then index + 1 else 0

/-- The macro that masks an index counts round the ring. -/
theorem smapBdNext_eq {index : Nat} (inside : index < smapBdMaxEntry) :
    smapBdNext index = (index + 1) % smapBdMaxEntry := by
  rw [smapBdNext]
  by_cases last : index < smapBdMaxEntry - 1
  · rw [if_pos last]
    simp only [smapBdMaxEntry] at *
    omega
  · rw [if_neg last]
    simp only [smapBdMaxEntry] at *
    omega

/-- `SMAP_BD_TX_READY`, which the driver sets and the hardware clears. -/
def smapBdTxReady : BitVec 16 := 1#16 <<< 15
/-- `SMAP_BD_TX_GENFCS`, the checksum is made by the hardware. -/
def smapBdTxGenfcs : BitVec 16 := 1#16 <<< 9
/-- `SMAP_BD_TX_GENPAD`, short frames are padded by the hardware. -/
def smapBdTxGenpad : BitVec 16 := 1#16 <<< 8

/-- `SMAP_BD_TX_ERRMASK`: bits 0 to 9. -/
def smapBdTxErrmask : BitVec 16 := 0x3ff#16

/-- A buffer descriptor: what is to be done with a frame or was, its length, and where it
lies. -/
structure SMapBD where
  ctrlStat : BitVec 16
  length : Nat
  pointer : Nat

/-- The descriptor still belongs to the hardware. -/
def SMapBD.ready (bd : SMapBD) : Bool := bd.ctrlStat &&& smapBdTxReady != 0

/-- The transmit control block: the descriptors, the two indices into them, and the two
pointers into the memory. -/
structure SMapCB where
  u16PTRStart : Nat
  u16PTREnd : Nat
  u8IndexStart : Nat
  u8IndexEnd : Nat
  u16Size : Nat
  pBD : Nat → SMapBD

/-- The data of one pbuf of a chain: its bytes, how many of them count, and its
address. -/
structure Segment where
  payload : Nat → UInt8
  len : Nat
  address : Nat

/-- A packet as handed to `SMap_Send`. -/
structure PBuf where
  totLen : Nat
  first : Segment
  rest : List Segment

/-- The driver and the hardware of the transmit side. -/
structure SMap where
  tx : SMapCB
  au32TXBuf : Nat → UInt8
  fifo : Port UInt8
  linkValid : Bool

/-- `SMapStatus`, what `SMap_Send` returns: sent, an error, no link, or no room. -/
inductive SMapStatus where
  | ok
  | err
  | con
  | tx
deriving DecidableEq

/-- `(length+3)&~3`: a length rounded up to words. -/
def roundUp (length : Nat) : Nat := (length + 3) / 4 * 4

/-- Rounding up to words adds less than a word. -/
theorem roundUp_bounds (length : Nat) :
    length ≤ roundUp length ∧ roundUp length < length + 4 ∧ roundUp length % 4 = 0 := by
  simp only [roundUp]
  omega

/-- `ComputeFreeSize`, in 16 bits. With the start pointer behind the end pointer it
returns the bytes in use, and not the free ones. -/
def computeFreeSize (cb : SMapCB) : Nat :=
  if cb.u16PTREnd < cb.u16PTRStart then (cb.u16Size + cb.u16PTREnd - cb.u16PTRStart) % 65536
  else (cb.u16Size - (cb.u16PTREnd - cb.u16PTRStart)) % 65536

/-- `TXBDInit`, with the size that `SMap_Init` sets. -/
def txBdInit : SMapCB where
  u16PTRStart := 0
  u16PTREnd := 0
  u8IndexStart := 0
  u8IndexEnd := 0
  u16Size := smapTxBufSize
  pBD := fun _ => ⟨0, 0, 0⟩

/-- The loop of `CopyToTXBuffer`, with the destination at offset `dest`. -/
def copyToTXBuffer (buffer : Nat → UInt8) (dest : Nat) : List Segment → Nat → UInt8
  | [] => buffer
  | src :: rest =>
      copyToTXBuffer
        (fun offset =>
          if dest ≤ offset ∧ offset < dest + src.len then src.payload (offset - dest)
          else buffer offset)
        (dest + src.len) rest

/-- `CopyToFIFO`: the write pointer is set to the end pointer, then words follow. -/
def copyToFIFO (smap : SMap) (src : Nat → UInt8) (iLen : Nat) : Port UInt8 :=
  (List.range ((iLen + 3) / 4)).foldl
    (fun fifo word => fifo.push smapTxBufSize ((List.range' (4 * word) 4).map src))
    { smap.fifo with pointer := smap.tx.u16PTREnd }

/-- `IsWordAligned`: the data of the first segment starts at a word. -/
def isWordAligned (pBuf : PBuf) : Bool := pBuf.first.address % 4 = 0

/-- `IsEMACReady`: `gnp` tells for each read of `SMAP_EMAC3_TxMODE0` whether
`E3_TX_GNP_0` is set. -/
def isEMACReady (gnp : Nat → Bool) : Bool := (List.range 1000).any fun turn => !gnp turn

/-- The end of `SMap_Send`: the descriptor is handed to the hardware and the
active range grows. -/
def SMapCB.append (tx : SMapCB) (iTotalLen : Nat) : SMapCB :=
  { tx with
    pBD := Function.update tx.pBD tx.u8IndexEnd {
      ctrlStat := smapBdTxReady ||| smapBdTxGenfcs ||| smapBdTxGenpad
      length := iTotalLen % 65536
      pointer := (tx.u16PTREnd + smapTxBufBase) % 65536 }
    u16PTREnd := (tx.u16PTREnd + roundUp iTotalLen) % smapTxBufSize
    u8IndexEnd := smapBdNext tx.u8IndexEnd }

/-- `SMap_Send`. Four checks come first, none of which writes anything; then the frame is
copied, straight from a single aligned segment and else through `au32TXBuf`, and its
descriptor is written. -/
def sMapSend (smap : SMap) (pPacket : PBuf) (gnp : Nat → Bool) : SMapStatus × SMap :=
  if !smap.linkValid then (.con, smap)
  else if smapTxMaxSize < pPacket.totLen then (.err, smap)
  else if computeFreeSize smap.tx < roundUp pPacket.totLen then (.tx, smap)
  else if !isEMACReady gnp then (.err, smap)
  else if pPacket.totLen = pPacket.first.len && isWordAligned pPacket then
    (.ok, { smap with
      fifo := copyToFIFO smap pPacket.first.payload (roundUp pPacket.totLen)
      tx := smap.tx.append pPacket.totLen })
  else
    let au32TXBuf := copyToTXBuffer smap.au32TXBuf 0 (pPacket.first :: pPacket.rest)
    (.ok, { smap with
      au32TXBuf := au32TXBuf
      fifo := copyToFIFO smap au32TXBuf (roundUp pPacket.totLen)
      tx := smap.tx.append pPacket.totLen })

/-- The end of a turn of `HandleTXInt`: the active range shrinks and the
descriptor is cleared. -/
def SMapCB.reap (tx : SMapCB) : SMapCB :=
  { tx with
    u16PTRStart := (tx.u16PTRStart + roundUp (tx.pBD tx.u8IndexStart).length) % smapTxBufSize
    u8IndexStart := smapBdNext tx.u8IndexStart
    pBD := Function.update tx.pBD tx.u8IndexStart ⟨0, 0, 0⟩ }

/-- A turn of `HandleTXInt` finds a frame the hardware is done with. -/
def SMapCB.Reaps (tx : SMapCB) : Prop :=
  tx.u8IndexStart ≠ tx.u8IndexEnd ∧ (tx.pBD tx.u8IndexStart).ready = false

/-- Whether a turn reaps a descriptor is decided from the ring alone. -/
instance (tx : SMapCB) : Decidable tx.Reaps := inferInstanceAs (Decidable (_ ∧ _))

/-- The checks of `SMap_Send`, all of which a frame passes that is sent. -/
structure Accepts (smap : SMap) (pPacket : PBuf) (gnp : Nat → Bool) : Prop where
  link : smap.linkValid = true
  size : pPacket.totLen ≤ smapTxMaxSize
  free : roundUp pPacket.totLen ≤ computeFreeSize smap.tx
  emac : isEMACReady gnp = true

/-- `SMap_Send` returns `SMap_OK` exactly when its checks pass. -/
theorem sMapSend_ok_iff (smap : SMap) (pPacket : PBuf) (gnp : Nat → Bool) :
    (sMapSend smap pPacket gnp).1 = .ok ↔ Accepts smap pPacket gnp := by
  constructor
  · intro sent
    simp only [sMapSend] at sent
    by_cases link : smap.linkValid
    · by_cases large : smapTxMaxSize < pPacket.totLen
      · simp [link, large] at sent
      · by_cases short : computeFreeSize smap.tx < roundUp pPacket.totLen
        · simp [link, large, short] at sent
        · by_cases emac : isEMACReady gnp
          · exact ⟨link, by omega, by omega, emac⟩
          · simp [link, large, short, emac] at sent
    · simp [link] at sent
  · rintro ⟨link, size, free, emac⟩
    simp only [sMapSend, link, emac, Nat.not_lt.mpr size, Nat.not_lt.mpr free, Bool.not_true,
      Bool.false_eq_true, ↓reduceIte]
    split <;> rfl

/-- What an accepted packet changes of the control block. -/
theorem Accepts.append {smap : SMap} {pPacket : PBuf} {gnp : Nat → Bool}
    (accepts : Accepts smap pPacket gnp) :
    (sMapSend smap pPacket gnp).2.tx = smap.tx.append pPacket.totLen := by
  obtain ⟨link, size, free, emac⟩ := accepts
  simp only [sMapSend, link, emac, Nat.not_lt.mpr size, Nat.not_lt.mpr free, Bool.not_true,
    Bool.false_eq_true, ↓reduceIte]
  split <;> rfl

/-- Whether a frame is accepted is decided by running `SMap_Send`. -/
instance (smap : SMap) (pPacket : PBuf) (gnp : Nat → Bool) : Decidable (Accepts smap pPacket gnp) :=
  decidable_of_iff _ (sMapSend_ok_iff smap pPacket gnp)

/-- A packet that is not accepted changes nothing. -/
theorem sMapSend_refused {smap : SMap} {pPacket : PBuf} {gnp : Nat → Bool}
    (refused : ¬ Accepts smap pPacket gnp) : (sMapSend smap pPacket gnp).2 = smap := by
  have either : (sMapSend smap pPacket gnp).1 = .ok ∨ (sMapSend smap pPacket gnp).2 = smap := by
    simp only [sMapSend]
    split
    · exact Or.inr rfl
    · split
      · exact Or.inr rfl
      · split
        · exact Or.inr rfl
        · split
          · exact Or.inr rfl
          · split
            · exact Or.inl rfl
            · exact Or.inl rfl
  exact either.resolve_left fun sent => refused ((sMapSend_ok_iff smap pPacket gnp).mp sent)

/-- The driver with a run of `HandleTXInt` under way, if any, and its `iNoError`;
`unreaped` holds the lengths of the frames sent and not yet reaped, oldest
first. -/
structure State where
  smap : SMap
  txInt : Option Bool
  unreaped : List Nat

/-- What happens next to the transmit ring. -/
inductive Action where
  | send (pPacket : PBuf) (gnp : Nat → Bool)
  /-- `HandleTXInt` is called. -/
  | handleTXInt
  /-- One turn of its loop. -/
  | txIntTurn
  /-- The hardware is done with a descriptor. -/
  | complete (index : Nat) (ctrlStat : BitVec 16)
  /-- `SMAP_F_LINKVALID` is written. -/
  | link (valid : Bool)

namespace State

/-- The control block is replaced, the rest of the state stays. -/
def setTx (state : State) (tx : SMapCB) : State := { state with smap := { state.smap with tx := tx } }

/-- `SMap_Send` runs with interrupts suspended or in the interrupt handler after
`HandleTXInt`, never inside it. -/
def stepSend (state : State) (pPacket : PBuf) (gnp : Nat → Bool) : Option State :=
  match state.txInt with
  | some _ => none
  | none =>
      let sent := sMapSend state.smap pPacket gnp
      if sent.1 = .ok then
        some { state with smap := sent.2, unreaped := state.unreaped ++ [pPacket.totLen] }
      else some { state with smap := sent.2 }

/-- One turn of the loop of `HandleTXInt`, or its end. -/
def stepTXInt (state : State) : Option State :=
  match state.txInt with
  | none => none
  | some noError =>
      let tx := state.smap.tx
      if tx.u8IndexStart ≠ tx.u8IndexEnd then
        let bd := tx.pBD tx.u8IndexStart
        if bd.ready then some { state with txInt := none }
        else some { state.setTx tx.reap with
          txInt := some (noError && bd.ctrlStat &&& smapBdTxErrmask == 0)
          unreaped := state.unreaped.tail }
      else some { state.setTx { tx with u16PTRStart := tx.u16PTREnd } with txInt := none }

/-- One step of the machine, if the action is possible. -/
def step (state : State) : Action → Option State
  | .send pPacket gnp => state.stepSend pPacket gnp
  | .handleTXInt =>
      match state.txInt with
      | none => some { state with txInt := some true }
      | some _ => none
  | .txIntTurn => state.stepTXInt
  | .complete index ctrlStat =>
      let bd := state.smap.tx.pBD (index % smapBdMaxEntry)
      some (state.setTx { state.smap.tx with
        pBD := Function.update state.smap.tx.pBD (index % smapBdMaxEntry)
          { bd with ctrlStat := ctrlStat &&& ~~~smapBdTxReady } })
  | .link valid => some { state with smap := { state.smap with linkValid := valid } }

end State

/-- What each action does, said once with the guard under which it is taken. -/
inductive Moves (state : State) : Action → State → Prop where
  | sent {pPacket : PBuf} {gnp : Nat → Bool} (here : state.txInt = none)
      (accepted : Accepts state.smap pPacket gnp) :
      Moves state (.send pPacket gnp) { state with
        smap := (sMapSend state.smap pPacket gnp).2
        unreaped := state.unreaped ++ [pPacket.totLen] }
  | refused {pPacket : PBuf} {gnp : Nat → Bool} (here : state.txInt = none)
      (refused : ¬ Accepts state.smap pPacket gnp) : Moves state (.send pPacket gnp) state
  | handleTXInt (here : state.txInt = none) :
      Moves state .handleTXInt { state with txInt := some true }
  | unfinished {noError : Bool} (here : state.txInt = some noError)
      (ready : (state.smap.tx.pBD state.smap.tx.u8IndexStart).ready = true) :
      Moves state .txIntTurn { state with txInt := none }
  | reap {noError : Bool} (here : state.txInt = some noError) (reaps : state.smap.tx.Reaps) :
      Moves state .txIntTurn { state.setTx state.smap.tx.reap with
        txInt := some (noError &&
          (state.smap.tx.pBD state.smap.tx.u8IndexStart).ctrlStat &&& smapBdTxErrmask == 0)
        unreaped := state.unreaped.tail }
  | reaped {noError : Bool} (here : state.txInt = some noError)
      (same : state.smap.tx.u8IndexStart = state.smap.tx.u8IndexEnd) :
      Moves state .txIntTurn
        { state.setTx { state.smap.tx with u16PTRStart := state.smap.tx.u16PTREnd } with txInt := none }
  | complete (index : Nat) (ctrlStat : BitVec 16) :
      Moves state (.complete index ctrlStat) (state.setTx { state.smap.tx with
        pBD := Function.update state.smap.tx.pBD (index % smapBdMaxEntry)
          { state.smap.tx.pBD (index % smapBdMaxEntry) with
            ctrlStat := ctrlStat &&& ~~~smapBdTxReady } })
  | link (valid : Bool) :
      Moves state (.link valid) { state with smap := { state.smap with linkValid := valid } }

/-- Every step is one of the moves. -/
theorem step_moves {state next : State} {action : Action}
    (taken : state.step action = some next) : Moves state action next := by
  cases action with
  | send pPacket gnp =>
    cases here : state.txInt with
    | some noError => simp [State.step, State.stepSend, here] at taken
    | none =>
      simp only [State.step, State.stepSend, here] at taken
      by_cases accepted : Accepts state.smap pPacket gnp
      · rw [if_pos ((sMapSend_ok_iff _ _ _).mpr accepted)] at taken
        cases taken
        simpa [here] using Moves.sent here accepted
      · rw [if_neg (mt (sMapSend_ok_iff _ _ _).mp accepted), sMapSend_refused accepted] at taken
        cases taken
        simpa [← here] using Moves.refused here accepted
  | handleTXInt =>
    cases here : state.txInt with
    | some noError => simp [State.step, here] at taken
    | none =>
      simp only [State.step, here, Option.some.injEq] at taken
      subst next
      exact Moves.handleTXInt here
  | txIntTurn =>
    cases here : state.txInt with
    | none => simp [State.step, State.stepTXInt, here] at taken
    | some noError =>
      simp only [State.step, State.stepTXInt, here] at taken
      by_cases same : state.smap.tx.u8IndexStart = state.smap.tx.u8IndexEnd
      · rw [if_neg (not_not_intro same)] at taken
        cases taken
        exact Moves.reaped here same
      · rw [if_pos same] at taken
        by_cases ready : (state.smap.tx.pBD state.smap.tx.u8IndexStart).ready
        · rw [if_pos ready] at taken
          cases taken
          exact Moves.unfinished here ready
        · rw [if_neg ready] at taken
          cases taken
          exact Moves.reap here ⟨same, by simpa using ready⟩
  | complete index ctrlStat =>
    cases taken
    exact Moves.complete index ctrlStat
  | link valid =>
    cases taken
    exact Moves.link valid

/-- The driver after `TXBDInit`, with nothing sent. -/
structure Initialised (state : State) : Prop where
  tx : state.smap.tx = txBdInit
  txInt : state.txInt = none
  unreaped : state.unreaped = []

/-- The runs of the machine. -/
abbrev TxRun := Runs.Run State.step Initialised

end Ps2Eth.SmapLinux
