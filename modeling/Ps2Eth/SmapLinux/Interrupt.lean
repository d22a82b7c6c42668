import Ps2Eth.SmapLinux.Receive
import Ps2Eth.SmapLinux.TxDescriptors

/-!
# The interrupt handler of the smap-linux driver

`SMapInterrupt` of `smap-linux/main.c` with `SMap_HandleTXInterrupt` and
`SMap_HandleRXEMACInterrupt` of `smap-linux/smap.c`, while the hardware goes on
completing and filling descriptors. It completes the oldest ready one, goes round
the receive ring in order, and latches an end interrupt with each.

An access of the driver to what it shares with the hardware is one step: a sample
of `INTR_STAT`, a write to `INTR_CLR`, a turn of a scan. `SMap_Send` takes two
steps, since its descriptor may be completed before it has moved the end index.
It runs with interrupts suspended, or out of `QueueHandler`, which may call it any
number of times.
-/

namespace Ps2Eth.SmapLinux

/-- `INTR_EMAC3`: the EMAC reports something. -/
def intrEmac3 : BitVec 16 := 1#16 <<< 6
/-- `INTR_RXEND`: a frame was received. -/
def intrRxEnd : BitVec 16 := 1#16 <<< 5
/-- `INTR_TXEND`: a frame was sent. -/
def intrTxEnd : BitVec 16 := 1#16 <<< 4
/-- `INTR_RXDNV`: a frame came and no descriptor was empty. -/
def intrRxDnv : BitVec 16 := 1#16 <<< 3
/-- `INTR_TXDNV`: no descriptor was ready. -/
def intrTxDnv : BitVec 16 := 1#16 <<< 2
/-- `INTR_BITMSK`: all interrupts of the adapter. -/
def intrBitmsk : BitVec 16 := 0x7c

/-- The flags that `SMapInterrupt` passes on for either direction. -/
def intrTx : BitVec 16 := intrTxDnv ||| intrTxEnd
/-- The two interrupts that `SMap_HandleRXEMACInterrupt` serves with `HandleRXInt`. -/
def intrRx : BitVec 16 := intrRxDnv ||| intrRxEnd

/-- Some of the bits are set. -/
def latched (stat bits : BitVec 16) : Bool := stat &&& bits != 0

/-- `SMap_GetIRQ`: the interrupts that are latched, of those that the driver knows. -/
def sMapGetIRQ (intrStat : BitVec 16) : BitVec 16 := intrStat &&& intrBitmsk

/-- `SMap_ClearIRQ`, as far as `INTR_STAT` goes. -/
def sMapClearIRQ (intrStat iFlags : BitVec 16) : BitVec 16 := intrStat &&& ~~~(iFlags &&& intrBitmsk)

/-- Bits that are not written stay. -/
theorem latched_clear {bits kept : BitVec 16} (intrStat iFlags : BitVec 16) (apart : bits &&& kept = 0) :
    latched (sMapClearIRQ intrStat (iFlags &&& bits)) kept = latched intrStat kept := by
  have untouched : ~~~(iFlags &&& bits &&& intrBitmsk) &&& kept = kept := by
    ext position inside
    have off : (bits &&& kept)[position] = (0 : BitVec 16)[position] := by rw [apart]
    simp only [BitVec.getElem_and, BitVec.ofNat_eq_ofNat, BitVec.getElem_zero] at off
    simp only [BitVec.getElem_and, BitVec.getElem_not]
    cases written : bits[position] with
    | false => simp
    | true =>
      rw [written, Bool.true_and] at off
      simp [off]
  rw [latched, latched, sMapClearIRQ, BitVec.and_assoc, untouched]

/-- A latched bit stays when others are raised. -/
theorem latched_raise {intrStat bits : BitVec 16} (more : BitVec 16)
    (before : latched intrStat bits = true) : latched (intrStat ||| more) bits = true := by
  rw [latched, bne_iff_ne] at before ⊢
  intro none
  apply before
  have whole : (intrStat ||| more) &&& bits = (intrStat &&& bits) ||| (more &&& bits) := by
    ext position inside
    simp [Bool.and_or_distrib_right]
  rw [whole] at none
  exact (BitVec.or_eq_zero_iff.mp none).1

/-- The descriptor writes of `SMap_Send`. -/
def SMapCB.submit (tx : SMapCB) (iTotalLen : Nat) : SMapCB :=
  { tx with
    pBD := Function.update tx.pBD tx.u8IndexEnd {
      ctrlStat := smapBdTxReady ||| smapBdTxGenfcs ||| smapBdTxGenpad
      length := iTotalLen % 65536
      pointer := (tx.u16PTREnd + smapTxBufBase) % 65536 } }

/-- "Update the end of the active-range." -/
def SMapCB.advance (tx : SMapCB) (iTotalLen : Nat) : SMapCB :=
  { tx with
    u16PTREnd := (tx.u16PTREnd + roundUp iTotalLen) % smapTxBufSize
    u8IndexEnd := smapBdNext tx.u8IndexEnd }

/-- The two make up the end of `SMap_Send`. -/
theorem SMapCB.advance_submit (tx : SMapCB) (iTotalLen : Nat) :
    (tx.submit iTotalLen).advance iTotalLen = tx.append iTotalLen := rfl

/-- The descriptor is given back to the hardware. -/
def RXPass.giveBack (pass : RXPass) : RXPass :=
  let index := pass.smap.u8RXIndex
  { pass with smap := { pass.smap with
    frameDec := pass.smap.frameDec + 1
    pRXBD := Function.update pass.smap.pRXBD index
      { pass.smap.pRXBD index with ctrlStat := smapBdRxEmpty } } }

/-- "Increase the BD-index." It is a step of its own, as the hardware may fill a
descriptor before it. -/
def SMapRX.nextIndex (smap : SMapRX) : SMapRX := { smap with u8RXIndex := smapBdNext smap.u8RXIndex }

namespace Interrupt

/-- A ring has a slot. -/
instance : NeZero smapBdMaxEntry := ⟨by decide⟩

/-- Where the driver stands: outside of `SMapInterrupt`, between the two steps of a
`SMap_Send`, or in `SMapInterrupt` with the flags last sampled or the `iNoError` of
`HandleRXInt`. -/
inductive Place where
  | outside
  | sending (iTotalLen : Nat) (inHandler : Bool)
  | sampled (iFlags : BitVec 16)
  | txScan
  | queue
  | resampled (iFlags : BitVec 16)
  | rxScan (iNoError : Bool)
  | rxGiven (iNoError : Bool)
  | rxDone
  | emac (iFlags : BitVec 16)
  | returned
deriving DecidableEq

/-- The oldest descriptor that is ready, going round from the start index. -/
def oldestReady (tx : SMapCB) : Option Nat :=
  ((List.range' tx.u8IndexStart smapBdMaxEntry).map (· % smapBdMaxEntry)).find? fun slot =>
    (tx.pBD slot).ready

/-- The descriptor that the hardware sends next is a slot of the ring. -/
theorem oldestReady_inside {tx : SMapCB} {slot : Nat} (oldest : oldestReady tx = some slot) :
    slot % smapBdMaxEntry = slot := by
  obtain ⟨position, -, rfl⟩ := List.mem_map.mp (List.mem_of_find?_eq_some oldest)
  exact Nat.mod_mod _ _

/-- The driver and the hardware: both sides of the driver, `INTR_STAT`, and the
receive descriptor that the hardware fills next. -/
structure Machine where
  driver : State
  rx : SMapRX
  intrStat : BitVec 16
  rxNext : Fin smapBdMaxEntry
  place : Place

/-- What may happen next: a step of the caller, of the handler, of the hardware. -/
inductive Event where
  /-- `SMap_Send`, up to the ready bit. -/
  | send (pPacket : PBuf) (gnp : Nat → Bool)
  /-- Its end. -/
  | sent
  /-- `SMapInterrupt` is called. -/
  | interrupt
  /-- It goes on; `pbuf_alloc` answers `allocOk` if it is called. -/
  | handler (allocOk : Bool)
  /-- The hardware completes the oldest frame that is ready. -/
  | complete (ctrlStat : BitVec 16)
  /-- The hardware fills the next descriptor with a frame received. -/
  | fill (bd : SMapBD) (cells : Nat → UInt8)
  /-- The hardware latches other interrupts. -/
  | raise (bits : BitVec 16)

namespace Machine

variable (machine : Machine)

/-- Replace the transmit control block. -/
def setTx (tx : SMapCB) : Machine := { machine with driver := machine.driver.setTx tx }

/-- `SMap_Send`, up to the ready bit. -/
def stepSend (pPacket : PBuf) (gnp : Nat → Bool) (inHandler : Bool) : Machine :=
  let sent := sMapSend machine.driver.smap pPacket gnp
  if sent.1 = .ok then
    { machine with
      driver := { machine.driver with
        smap := { sent.2 with tx := machine.driver.smap.tx.submit pPacket.totLen } }
      place := .sending pPacket.totLen inHandler }
  else { machine with driver := { machine.driver with smap := sent.2 } }

/-- The end of `SMap_Send`: the pointers advance and the frame counts among those in
flight. -/
def stepSent (iTotalLen : Nat) (inHandler : Bool) : Machine :=
  { machine with
    driver := { machine.driver.setTx (machine.driver.smap.tx.advance iTotalLen) with
      unreaped := machine.driver.unreaped ++ [iTotalLen] }
    place := if inHandler then .queue else .outside }

/-- `SMap_HandleRXEMACInterrupt` is called with the interrupts sampled. Receive bits are
cleared before the ring is looked at. -/
def handleRXEMAC (iFlags : BitVec 16) : Machine :=
  if latched iFlags intrRx then
    { machine with
      intrStat := sMapClearIRQ machine.intrStat (iFlags &&& intrRx)
      place := .rxScan true }
  else { machine with place := .emac iFlags }

/-- One turn of the loop of `HandleRXInt`, up to the descriptor given back. -/
def rxTurn (iNoError allocOk : Bool) : Machine :=
  let bd := machine.rx.pRXBD machine.rx.u8RXIndex
  if bd.empty then { machine with place := .rxDone }
  else
    let pass := ((RXPass.mk machine.rx iNoError).fetch bd allocOk).2.giveBack
    { machine with rx := pass.smap, place := .rxGiven pass.iNoError }

/-- One step of `SMapInterrupt`. Its samples, its clears and every turn of its scans are
steps of their own. -/
def stepHandler (allocOk : Bool) : Option Machine :=
  match machine.place with
  | .sampled iFlags =>
      if latched iFlags intrTx then
        some { machine with
          intrStat := sMapClearIRQ machine.intrStat (iFlags &&& intrTx)
          driver := { machine.driver with txInt := some true }
          place := .txScan }
      else some { machine with place := .resampled iFlags }
  | .txScan =>
      machine.driver.stepTXInt.map fun driver =>
        { machine with driver := driver, place := if driver.txInt.isSome then .txScan else .queue }
  | .queue => some { machine with place := .resampled (sMapGetIRQ machine.intrStat) }
  | .resampled iFlags =>
      if latched iFlags (intrEmac3 ||| intrRx) then
        some (machine.handleRXEMAC (iFlags &&& (intrEmac3 ||| intrRx)))
      else some { machine with place := .returned }
  | .rxScan iNoError => some (machine.rxTurn iNoError allocOk)
  | .rxGiven iNoError => some { machine with rx := machine.rx.nextIndex, place := .rxScan iNoError }
  | .rxDone => some { machine with place := .emac (sMapGetIRQ machine.intrStat) }
  | .emac iFlags =>
      if latched iFlags intrEmac3 then
        some { machine with intrStat := sMapClearIRQ machine.intrStat intrEmac3, place := .returned }
      else some { machine with place := .returned }
  | .returned => some { machine with place := .outside }
  | .outside | .sending _ _ => none

/-- One step of the machine, if it is possible. -/
def step : Event → Option Machine
  | .send pPacket gnp =>
      match machine.place with
      | .outside => some (machine.stepSend pPacket gnp false)
      | .queue => some (machine.stepSend pPacket gnp true)
      | _ => none
  | .sent =>
      match machine.place with
      | .sending iTotalLen inHandler => some (machine.stepSent iTotalLen inHandler)
      | _ => none
  | .interrupt =>
      match machine.place with
      | .outside => some { machine with place := .sampled (sMapGetIRQ machine.intrStat) }
      | _ => none
  | .handler allocOk => machine.stepHandler allocOk
  | .complete ctrlStat =>
      let tx := machine.driver.smap.tx
      (oldestReady tx).map fun slot =>
        { machine.setTx { tx with
            pBD := Function.update tx.pBD slot
              { tx.pBD slot with ctrlStat := ctrlStat &&& ~~~smapBdTxReady } } with
          intrStat := machine.intrStat ||| intrTxEnd }
  | .fill bd cells =>
      if (machine.rx.pRXBD machine.rxNext).empty then
        some { machine with
          rx := { machine.rx with
            pRXBD := Function.update machine.rx.pRXBD machine.rxNext
              { bd with ctrlStat := bd.ctrlStat &&& ~~~smapBdRxEmpty }
            fifo := { machine.rx.fifo with cells := cells } }
          rxNext := machine.rxNext + 1
          intrStat := machine.intrStat ||| intrRxEnd }
      else none
  | .raise bits => some { machine with intrStat := machine.intrStat ||| bits }

end Machine

namespace Place

/-- The place that `SMap_Send` returns to. -/
def caller (inHandler : Bool) : Place := if inHandler then .queue else .outside

/-- A caller is in `SMap_Send`, between its look at the ring and the ready bit. -/
def sends : Place → Bool
  | .sending _ _ => true
  | _ => false

/-- The handler is in the loop of `HandleTXInt`. -/
def scansTx : Place → Bool
  | .txScan => true
  | _ => false

/-- The handler is in the loop of `HandleRXInt`. -/
def scansRx : Place → Bool
  | .rxScan _ | .rxGiven _ => true
  | _ => false

/-- Inside `SMap_Send` or a scan. -/
def busy (place : Place) : Bool := place.sends || place.scansTx || place.scansRx

/-- Between the calls nothing is under way. -/
theorem caller_busy (inHandler : Bool) : (caller inHandler).busy = false := by
  cases inHandler <;> rfl

/-- Where nothing is under way neither a send nor a scan is. -/
theorem of_not_busy {place : Place} (idle : place.busy = false) :
    place.sends = false ∧ place.scansTx = false ∧ place.scansRx = false := by
  simpa [busy, and_assoc] using idle

end Place

/-- What each step does, said once with the guard under which it is taken. -/
inductive Moves (machine : Machine) : Event → Machine → Prop where
  | send {pPacket : PBuf} {gnp : Nat → Bool} (inHandler : Bool)
      (here : machine.place = .caller inHandler)
      (accepted : Accepts machine.driver.smap pPacket gnp) :
      Moves machine (.send pPacket gnp) { machine with
        driver := { machine.driver with
          smap := { (sMapSend machine.driver.smap pPacket gnp).2 with
            tx := machine.driver.smap.tx.submit pPacket.totLen } }
        place := .sending pPacket.totLen inHandler }
  | refused {pPacket : PBuf} {gnp : Nat → Bool}
      (refused : ¬ Accepts machine.driver.smap pPacket gnp) :
      Moves machine (.send pPacket gnp) machine
  | sent {iTotalLen : Nat} {inHandler : Bool} (here : machine.place = .sending iTotalLen inHandler) :
      Moves machine .sent (machine.stepSent iTotalLen inHandler)
  | clearTx {iFlags : BitVec 16} {allocOk : Bool} (here : machine.place = .sampled iFlags) :
      Moves machine (.handler allocOk) { machine with
        intrStat := sMapClearIRQ machine.intrStat (iFlags &&& intrTx)
        driver := { machine.driver with txInt := some true }
        place := .txScan }
  | reap {noError allocOk : Bool} (here : machine.place = .txScan)
      (scans : machine.driver.txInt = some noError) (reaps : machine.driver.smap.tx.Reaps) :
      Moves machine (.handler allocOk) { machine with
        driver := { machine.driver.setTx machine.driver.smap.tx.reap with
          txInt := some (noError && (machine.driver.smap.tx.pBD
            machine.driver.smap.tx.u8IndexStart).ctrlStat &&& smapBdTxErrmask == 0)
          unreaped := machine.driver.unreaped.tail }
        place := .txScan }
  | unfinished {noError allocOk : Bool} (here : machine.place = .txScan)
      (scans : machine.driver.txInt = some noError)
      (active : machine.driver.smap.tx.u8IndexStart ≠ machine.driver.smap.tx.u8IndexEnd)
      (ready : (machine.driver.smap.tx.pBD machine.driver.smap.tx.u8IndexStart).ready = true) :
      Moves machine (.handler allocOk) { machine with
        driver := { machine.driver with txInt := none }
        place := .queue }
  | reaped {noError allocOk : Bool} (here : machine.place = .txScan)
      (scans : machine.driver.txInt = some noError)
      (same : machine.driver.smap.tx.u8IndexStart = machine.driver.smap.tx.u8IndexEnd) :
      Moves machine (.handler allocOk) { machine with
        driver := { machine.driver.setTx { machine.driver.smap.tx with
            u16PTRStart := machine.driver.smap.tx.u16PTREnd } with
          txInt := none }
        place := .queue }
  | clearRx {iFlags : BitVec 16} {allocOk : Bool} (here : machine.place = .resampled iFlags) :
      Moves machine (.handler allocOk) { machine with
        intrStat := sMapClearIRQ machine.intrStat (iFlags &&& (intrEmac3 ||| intrRx) &&& intrRx)
        place := .rxScan true }
  | rxFrame {iNoError allocOk : Bool} (here : machine.place = .rxScan iNoError) (rx : SMapRX)
      (noError : Bool) :
      Moves machine (.handler allocOk) { machine with rx := rx, place := .rxGiven noError }
  | rxNext {iNoError allocOk : Bool} (here : machine.place = .rxGiven iNoError) :
      Moves machine (.handler allocOk)
        { machine with rx := machine.rx.nextIndex, place := .rxScan iNoError }
  | rxEnd {iNoError allocOk : Bool} (here : machine.place = .rxScan iNoError)
      (empty : (machine.rx.pRXBD machine.rx.u8RXIndex).empty = true) :
      Moves machine (.handler allocOk) { machine with place := .rxDone }
  | clearEmac {iFlags : BitVec 16} {allocOk : Bool} (here : machine.place = .emac iFlags) :
      Moves machine (.handler allocOk) { machine with
        intrStat := sMapClearIRQ machine.intrStat intrEmac3
        place := .returned }
  /-- `SMapInterrupt` is called, goes on with what it sampled, or is left. -/
  | goesOn {event : Event} {place : Place} (here : machine.place.busy = false)
      (there : place.busy = false) : Moves machine event { machine with place := place }
  | complete {ctrlStat : BitVec 16} {slot : Nat}
      (oldest : oldestReady machine.driver.smap.tx = some slot) :
      Moves machine (.complete ctrlStat) { machine.setTx { machine.driver.smap.tx with
          pBD := Function.update machine.driver.smap.tx.pBD slot
            { machine.driver.smap.tx.pBD slot with ctrlStat := ctrlStat &&& ~~~smapBdTxReady } } with
        intrStat := machine.intrStat ||| intrTxEnd }
  | fill {bd : SMapBD} {cells : Nat → UInt8}
      (empty : (machine.rx.pRXBD machine.rxNext).empty = true) :
      Moves machine (.fill bd cells) { machine with
        rx := { machine.rx with
          pRXBD := Function.update machine.rx.pRXBD machine.rxNext
            { bd with ctrlStat := bd.ctrlStat &&& ~~~smapBdRxEmpty }
          fifo := { machine.rx.fifo with cells := cells } }
        rxNext := machine.rxNext + 1
        intrStat := machine.intrStat ||| intrRxEnd }
  | raise (bits : BitVec 16) :
      Moves machine (.raise bits) { machine with intrStat := machine.intrStat ||| bits }

/-- A call of `SMap_Send` is one of the moves. -/
theorem stepSend_moves {machine : Machine} (pPacket : PBuf) (gnp : Nat → Bool) {inHandler : Bool}
    (here : machine.place = .caller inHandler) :
    Moves machine (.send pPacket gnp) (machine.stepSend pPacket gnp inHandler) := by
  by_cases accepted : Accepts machine.driver.smap pPacket gnp
  · rw [Machine.stepSend, if_pos ((sMapSend_ok_iff _ _ _).mpr accepted)]
    exact .send inHandler here accepted
  · rw [Machine.stepSend, if_neg (mt (sMapSend_ok_iff _ _ _).mp accepted), sMapSend_refused accepted]
    exact .refused accepted

/-- So is every step of the handler. -/
theorem stepHandler_moves {machine next : Machine} {allocOk : Bool}
    (taken : machine.stepHandler allocOk = some next) : Moves machine (.handler allocOk) next := by
  unfold Machine.stepHandler at taken
  cases here : machine.place with
  | sampled iFlags =>
    simp only [here] at taken
    split at taken
    · cases taken
      exact .clearTx here
    · cases taken
      exact .goesOn (by rw [here]; rfl) rfl
  | txScan =>
    simp only [here, State.stepTXInt] at taken
    cases scans : machine.driver.txInt with
    | none => simp [scans] at taken
    | some noError =>
      simp only [scans] at taken
      by_cases same : machine.driver.smap.tx.u8IndexStart = machine.driver.smap.tx.u8IndexEnd
      · rw [if_neg (not_not_intro same)] at taken
        cases taken
        exact .reaped here scans same
      · rw [if_pos same] at taken
        by_cases ready : (machine.driver.smap.tx.pBD machine.driver.smap.tx.u8IndexStart).ready
        · rw [if_pos ready] at taken
          cases taken
          exact .unfinished here scans same ready
        · rw [if_neg ready] at taken
          cases taken
          exact .reap here scans ⟨same, by simpa using ready⟩
  | queue =>
    simp only [here] at taken
    cases taken
    exact .goesOn (by rw [here]; rfl) rfl
  | resampled iFlags =>
    simp only [here, Machine.handleRXEMAC] at taken
    split at taken
    · cases taken
      split
      · exact .clearRx here
      · exact .goesOn (by rw [here]; rfl) rfl
    · cases taken
      exact .goesOn (by rw [here]; rfl) rfl
  | rxScan iNoError =>
    simp only [here, Machine.rxTurn] at taken
    split at taken
    next empty =>
      cases taken
      exact .rxEnd here empty
    next =>
      cases taken
      exact .rxFrame here _ _
  | rxGiven iNoError =>
    simp only [here] at taken
    cases taken
    exact .rxNext here
  | rxDone =>
    simp only [here] at taken
    cases taken
    exact .goesOn (by rw [here]; rfl) rfl
  | emac iFlags =>
    simp only [here] at taken
    split at taken
    · cases taken
      exact .clearEmac here
    · cases taken
      exact .goesOn (by rw [here]; rfl) rfl
  | returned =>
    simp only [here] at taken
    cases taken
    exact .goesOn (by rw [here]; rfl) rfl
  | outside | sending => simp [here] at taken

/-- Every step is one of the moves. -/
theorem step_moves {machine next : Machine} {event : Event}
    (taken : machine.step event = some next) : Moves machine event next := by
  cases event with
  | send pPacket gnp =>
    cases here : machine.place with
    | outside =>
      simp only [Machine.step, here, Option.some.injEq] at taken
      subst next
      exact stepSend_moves pPacket gnp here
    | queue =>
      simp only [Machine.step, here, Option.some.injEq] at taken
      subst next
      exact stepSend_moves pPacket gnp here
    | _ => simp [Machine.step, here] at taken
  | sent =>
    cases here : machine.place with
    | sending iTotalLen inHandler =>
      simp only [Machine.step, here, Option.some.injEq] at taken
      subst next
      exact .sent here
    | _ => simp [Machine.step, here] at taken
  | interrupt =>
    cases here : machine.place with
    | outside =>
      simp only [Machine.step, here, Option.some.injEq] at taken
      subst next
      exact .goesOn (by rw [here]; rfl) rfl
    | _ => simp [Machine.step, here] at taken
  | handler allocOk => exact stepHandler_moves taken
  | complete ctrlStat =>
    simp only [Machine.step] at taken
    obtain ⟨slot, oldest, rfl⟩ := Option.map_eq_some_iff.mp taken
    exact .complete oldest
  | fill bd cells =>
    simp only [Machine.step] at taken
    split at taken
    next empty =>
      cases taken
      exact .fill empty
    next => simp at taken
  | raise bits =>
    cases taken
    exact .raise bits

end Interrupt
end Ps2Eth.SmapLinux
