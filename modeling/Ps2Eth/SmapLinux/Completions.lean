import Ps2Eth.SmapLinux.Interrupt

/-!
# Completions are not forgotten

`SMapInterrupt` clears the flags it sampled before it scans the descriptors. A
descriptor that the hardware is done with before the clear is met by the scan
behind it; one it is done with later latches its interrupt anew. So outside of a
scan the descriptor at either index is either still with the hardware or has its
interrupt latched.

A run of the machine is, seen from the transmit side, a run of the transmit ring,
which tells when a frame is in flight.
-/

namespace Ps2Eth.SmapLinux.Interrupt

/-- The transmit side, with a `SMap_Send` that set its ready bit taken as done. -/
def Machine.view (machine : Machine) : State :=
  match machine.place with
  | .sending iTotalLen _ =>
      { machine.driver.setTx (machine.driver.smap.tx.advance iTotalLen) with
        txInt := none
        unreaped := machine.driver.unreaped ++ [iTotalLen] }
  | .txScan => machine.driver
  | _ => { machine.driver with txInt := none }

/-- `SMap_Start` was called: nothing is sent and every receive descriptor is
empty. -/
structure Started (machine : Machine) : Prop where
  driver : Initialised machine.driver
  u8RXIndex : machine.rx.u8RXIndex = 0
  pRXBD : ∀ slot, machine.rx.pRXBD slot = ⟨smapBdRxEmpty, 0, 0⟩
  rxNext : machine.rxNext = 0
  place : machine.place = .outside

/-- A frame that `SMap_Send` accepts leaves a descriptor free. -/
def KeepsRoom (machine : Machine) (event : Event) : Prop :=
  ∀ pPacket gnp, event = .send pPacket gnp → Accepts machine.driver.smap pPacket gnp →
    machine.driver.unreaped.length + 1 < smapBdMaxEntry

/-- No completion is forgotten: if a frame is in flight and the first of them is
completed, or the next receive descriptor is filled, then its interrupt is
latched. -/
structure NoneForgotten (machine : Machine) : Prop where
  tx : machine.driver.unreaped ≠ [] →
    (machine.driver.smap.tx.pBD machine.driver.smap.tx.u8IndexStart).ready = false →
    latched machine.intrStat intrTxEnd = true
  rx : (machine.rx.pRXBD machine.rx.u8RXIndex).empty = false →
    latched machine.intrStat intrRxEnd = true

/-- Where the handler is neither sending nor scanning, the ring sees no `HandleTXInt`
under way. -/
theorem view_quiet (machine : Machine) (sends : machine.place.sends = false)
    (scans : machine.place.scansTx = false) :
    machine.view = { machine.driver with txInt := none } := by
  unfold Machine.view
  cases here : machine.place with
  | sending => simp [here, Place.sends] at sends
  | txScan => simp [here, Place.scansTx] at scans
  | _ => rfl

/-- Between interrupts it sees none either. -/
theorem view_idle (machine : Machine) (idle : machine.place.busy = false) :
    machine.view = { machine.driver with txInt := none } := by
  obtain ⟨sends, scans, -⟩ := Place.of_not_busy idle
  exact view_quiet machine sends scans

/-- A step of the machine is a step of the transmit ring or leaves it alone, and
only `SMap_Send` sends. -/
theorem moves_view {machine next : Machine} {event : Event} (moves : Moves machine event next) :
    next.view = machine.view ∨ ∃ action, machine.view.step action = some next.view ∧
      ∀ pPacket gnp, action = .send pPacket gnp →
        event = .send pPacket gnp ∧ machine.view = { machine.driver with txInt := none } := by
  cases moves with
  | @send pPacket gnp inHandler here accepted =>
    right
    refine ⟨.send pPacket gnp, ?_⟩
    have idle := view_idle machine (by rw [here, Place.caller_busy])
    have ok := (sMapSend_ok_iff machine.driver.smap pPacket gnp).mpr accepted
    constructor
    · rw [idle]
      simp only [State.step, State.stepSend, ok, if_true]
      simp only [Machine.view, State.setTx, SMapCB.advance_submit, ← accepted.append]
    · intro pPacket gnp same
      cases same
      exact ⟨rfl, idle⟩
  | refused => exact Or.inl rfl
  | @sent iTotalLen inHandler here =>
    left
    rw [view_idle (machine.stepSent iTotalLen inHandler) (Place.caller_busy inHandler)]
    simp only [Machine.view, here]
    rfl
  | clearTx here =>
    right
    refine ⟨.handleTXInt, ?_, by rintro pPacket gnp ⟨⟩⟩
    rw [view_quiet machine (by rw [here]; rfl) (by rw [here]; rfl)]
    rfl
  | reap here scans reaps =>
    right
    refine ⟨.txIntTurn, ?_, by rintro pPacket gnp ⟨⟩⟩
    obtain ⟨active, done⟩ := reaps
    simp only [Machine.view, here, State.step, State.stepTXInt, scans, if_pos active, done]
    rfl
  | unfinished here scans active ready =>
    right
    refine ⟨.txIntTurn, ?_, by rintro pPacket gnp ⟨⟩⟩
    simp only [Machine.view, here, State.step, State.stepTXInt, scans, if_pos active, if_pos ready]
  | reaped here scans same =>
    right
    refine ⟨.txIntTurn, ?_, by rintro pPacket gnp ⟨⟩⟩
    simp only [Machine.view, here, State.step, State.stepTXInt, scans, if_neg (not_not_intro same)]
  | clearRx here =>
    left
    rw [view_idle machine (by rw [here]; rfl)]
    rfl
  | rxFrame here | rxNext here | rxEnd here =>
    left
    rw [view_quiet machine (by rw [here]; rfl) (by rw [here]; rfl)]
    rfl
  | clearEmac here =>
    left
    rw [view_idle machine (by rw [here]; rfl)]
    rfl
  | @goesOn _ place here there =>
    left
    rw [view_idle machine here, view_idle { machine with place := place } there]
  | @complete ctrlStat slot oldest =>
    right
    refine ⟨.complete slot ctrlStat, ?_, by rintro pPacket gnp ⟨⟩⟩
    simp only [State.step, oldestReady_inside oldest]
    cases here : machine.place <;> simp only [Machine.view, Machine.setTx, here] <;> rfl
  | fill | raise =>
    left
    cases here : machine.place <;> simp only [Machine.view, here]

/-- What holds at every step: outside of a scan the descriptor at either index is
with the hardware or has its interrupt latched. -/
structure Remembered (machine : Machine) : Prop where
  tx : machine.place.scansTx = false →
    machine.driver.smap.tx.u8IndexStart ≠ machine.driver.smap.tx.u8IndexEnd ∨
      machine.place.sends = true →
    (machine.driver.smap.tx.pBD machine.driver.smap.tx.u8IndexStart).ready = true ∨
      latched machine.intrStat intrTxEnd = true
  rx : machine.place.scansRx = false →
    (machine.rx.pRXBD machine.rx.u8RXIndex).empty = true ∨ latched machine.intrStat intrRxEnd = true

/-- At the start nothing has completed, so nothing can be forgotten. -/
theorem started_remembered {machine : Machine} (started : Started machine) : Remembered machine := by
  constructor
  · rintro - (active | sends)
    · rw [started.driver.tx] at active
      exact absurd rfl active
    · rw [started.place] at sends
      cases sends
  · intro _
    left
    rw [started.pRXBD]
    decide

/-- The descriptor that `SMap_Send` hands over is ready. -/
theorem submitted_ready (tx : SMapCB) (iTotalLen : Nat) :
    ((tx.submit iTotalLen).pBD tx.u8IndexEnd).ready = true := by
  simp only [SMapCB.submit, Function.update_self, SMapBD.ready]
  decide

/-- Clearing the flags of one direction keeps the end interrupt of the other. -/
theorem clearTx_keeps (intrStat iFlags : BitVec 16) :
    latched (sMapClearIRQ intrStat (iFlags &&& intrTx)) intrRxEnd = latched intrStat intrRxEnd :=
  latched_clear intrStat iFlags (by decide)

/-- Clearing receive bits leaves a latched transmit completion. -/
theorem clearRx_keeps (intrStat iFlags : BitVec 16) :
    latched (sMapClearIRQ intrStat (iFlags &&& intrRx)) intrTxEnd = latched intrStat intrTxEnd :=
  latched_clear intrStat iFlags (by decide)

/-- Clearing the EMAC bit leaves all bits apart from it. -/
theorem clearEmac_keeps (intrStat : BitVec 16) {bits : BitVec 16} (apart : intrEmac3 &&& bits = 0) :
    latched (sMapClearIRQ intrStat intrEmac3) bits = latched intrStat bits := by
  simpa only [BitVec.and_self] using latched_clear intrStat intrEmac3 apart

/-- A bit that the hardware raises is latched. -/
theorem raise_latches (intrStat : BitVec 16) {bits : BitVec 16} (some : latched bits bits = true) :
    latched (intrStat ||| bits) bits = true := by
  rw [BitVec.or_comm]
  exact latched_raise intrStat some

/-- Every step keeps both sides remembered.

Proof: by the moves. A scan ends at a descriptor that is with the hardware; a descriptor
that the hardware finishes has its interrupt latched; and an interrupt is only cleared
before the scan that looks for it. -/
theorem moves_remembered {machine next : Machine} {event : Event} (remembered : Remembered machine)
    (moves : Moves machine event next) : Remembered next := by
  obtain ⟨tx, rx⟩ := remembered
  cases moves with
  | @send pPacket gnp inHandler here accepted =>
    obtain ⟨noSend, noScan, noScanRx⟩ := Place.of_not_busy (here ▸ Place.caller_busy inHandler)
    refine ⟨?_, fun _ => rx noScanRx⟩
    intro _ _
    by_cases same : machine.driver.smap.tx.u8IndexStart = machine.driver.smap.tx.u8IndexEnd
    · left
      change ((machine.driver.smap.tx.submit _).pBD machine.driver.smap.tx.u8IndexStart).ready = true
      rw [same]
      exact submitted_ready _ _
    · simp only [SMapCB.submit, Function.update_of_ne same]
      exact tx noScan (Or.inl same)
  | refused => exact ⟨tx, rx⟩
  | @sent iTotalLen inHandler here =>
    refine ⟨fun _ _ => tx (by rw [here]; rfl) (Or.inr (by rw [here]; rfl)), fun _ => rx (by rw [here]; rfl)⟩
  | clearTx here =>
    refine ⟨fun away => (by cases away), fun _ => ?_⟩
    rw [clearTx_keeps]
    exact rx (by rw [here]; rfl)
  | reap here scans reaps =>
    exact ⟨fun away => (by cases away), fun _ => rx (by rw [here]; rfl)⟩
  | unfinished here scans active ready =>
    exact ⟨fun _ _ => Or.inl ready, fun _ => rx (by rw [here]; rfl)⟩
  | reaped here scans same =>
    refine ⟨?_, fun _ => rx (by rw [here]; rfl)⟩
    rintro - (active | sends)
    · exact absurd same active
    · cases sends
  | clearRx here =>
    refine ⟨fun _ active => ?_, fun away => by cases away⟩
    rw [clearRx_keeps]
    refine tx (by rw [here]; rfl) (active.imp_right fun sends => by cases sends)
  | rxFrame here | rxNext here =>
    refine ⟨fun _ active => ?_, fun away => by cases away⟩
    exact tx (by rw [here]; rfl) (active.imp_right fun sends => by cases sends)
  | rxEnd here empty =>
    refine ⟨fun _ active => ?_, fun _ => Or.inl empty⟩
    exact tx (by rw [here]; rfl) (active.imp_right fun sends => by cases sends)
  | clearEmac here =>
    constructor
    · intro _ active
      rw [clearEmac_keeps _ (by decide)]
      exact tx (by rw [here]; rfl) (active.imp_right fun sends => by cases sends)
    · intro _
      rw [clearEmac_keeps _ (by decide)]
      exact rx (by rw [here]; rfl)
  | goesOn here there =>
    obtain ⟨-, noScan, noScanRx⟩ := Place.of_not_busy here
    obtain ⟨noSend, -, -⟩ := Place.of_not_busy there
    refine ⟨fun _ active => tx noScan ?_, fun _ => rx noScanRx⟩
    exact active.imp_right fun sends => absurd (noSend.symm.trans sends) (by decide)
  | complete oldest =>
    constructor
    · intro _ _
      exact Or.inr (raise_latches _ (by decide))
    · intro away
      exact (rx away).imp_right (latched_raise _)
  | fill empty =>
    constructor
    · intro away active
      exact (tx away active).imp_right (latched_raise _)
    · intro _
      exact Or.inr (raise_latches _ (by decide))
  | raise bits =>
    constructor
    · intro away active
      exact (tx away active).imp_right (latched_raise _)
    · intro away
      exact (rx away).imp_right (latched_raise _)

/-- At the start the ring sees the driver as it is. -/
theorem started_view {machine : Machine} (started : Started machine) :
    machine.view = machine.driver := by
  rw [view_idle machine (by rw [started.place]; rfl), ← started.driver.txInt]

/-- At the start the ring's invariant holds, as no descriptor is in use. -/
theorem started_ringKept {machine : Machine} (started : Started machine) :
    RingKept machine.view := by
  rw [started_view started]
  refine ⟨initialised_indexed started.driver, initialised_readyInside started.driver, ?_⟩
  simp [started.driver.unreaped, smapBdMaxEntry]

/-- A step that keeps room keeps the transmit ring. -/
theorem moves_view_ringKept {machine next : Machine} {event : Event} (kept : RingKept machine.view)
    (room : KeepsRoom machine event) (moves : Moves machine event next) : RingKept next.view := by
  rcases moves_view moves with same | ⟨action, taken, sends⟩
  · rw [same]
    exact kept
  · refine moves_ringKept kept ?_ (SmapLinux.step_moves taken)
    rintro pPacket gnp here accepted
    obtain ⟨rfl, idle⟩ := sends pPacket gnp here
    have indexed := kept.indexed
    rw [idle] at indexed accepted ⊢
    have free := room pPacket gnp rfl accepted
    have start := indexed.start
    rw [smapBdNext_eq indexed.end_lt, indexed.ahead]
    simp only [smapBdMaxEntry] at *
    omega

/-- For every interleaving of the hardware with `SMapInterrupt` and `SMap_Send` in
which the transmit ring always keeps a free descriptor, no completion is forgotten
when `SMapInterrupt` returns.

Proof: two invariants hold through the run. The descriptor at either index is with the
hardware or has its interrupt latched, except in the scan that is about to look at it; and
the ring keeps a free descriptor, so that equal indices mean an empty ring. When the
handler returns no scan is under way. -/
theorem no_completion_forgotten {steps : List (Machine × Event)} {machine : Machine}
    (run : Runs.Run Machine.step Started steps machine) (room : Runs.Meets KeepsRoom steps)
    (returned : machine.place = .returned) : NoneForgotten machine := by
  have remembered : Remembered machine :=
    Runs.state_invariant Remembered (fun _ => started_remembered)
      (fun _ _ _ remembered taken => moves_remembered remembered (step_moves taken)) run
  have kept : RingKept machine.view :=
    Runs.invariant (fun _ machine => RingKept machine.view) (fun _ => started_ringKept)
      (fun _ _ _ _ kept keeps taken => moves_view_ringKept kept keeps (step_moves taken)) run room
  rw [view_idle machine (by rw [returned]; rfl)] at kept
  constructor
  · intro inFlight done
    have active := mt (kept.indexed.empty_iff kept.notFull).mp inFlight
    have either := remembered.tx (by rw [returned]; rfl) (Or.inl active)
    exact either.resolve_left (by simp [done])
  · intro filled
    exact (remembered.rx (by rw [returned]; rfl)).resolve_left (by simp [filled])

/-- The machine just started, with every receive descriptor at the hardware. -/
def startedMachine : Machine where
  driver := linkedDriver
  rx := ⟨0, 0, fun _ => ⟨smapBdRxEmpty, 0, 0⟩, ⟨fun _ => 0, 0⟩, 0⟩
  intrStat := 0
  rxNext := 0
  place := .outside

/-- A frame is sent out of the interrupt handler, and both it and a second frame
received are finished before the handler returns. -/
theorem no_completion_forgotten_late : ∃ steps machine, Runs.Run Machine.step Started steps machine ∧
    machine.place = .returned ∧ machine.driver.unreaped = [60] ∧ NoneForgotten machine := by
  obtain ⟨steps, machine, run, returned, unreaped, room⟩ := Runs.run_of_performed Machine.step
    (fun steps machine => machine.place = .returned ∧ machine.driver.unreaped = [60] ∧
      ∀ entry ∈ steps, entry.1.driver.unreaped.length + 1 < smapBdMaxEntry)
    (⟨linkedDriver_initialised, rfl, fun _ => rfl, rfl, rfl⟩ : Started startedMachine)
    [.send (plainPacket 60 1) fun _ => false, .sent, .complete 0, .interrupt, .handler true,
      .handler true, .handler true, .send (plainPacket 60 2) fun _ => false, .complete 0, .sent,
      .fill ⟨0, 60, 0x4000⟩ fun _ => 0, .handler true, .handler true, .handler true, .handler true,
      .handler true, .fill ⟨0, 60, 0x4040⟩ fun _ => 0, .handler true, .handler true]
    (by decide +kernel)
  refine ⟨steps, machine, run, returned, unreaped, no_completion_forgotten run ?_ returned⟩
  rintro entry member pPacket gnp _ _
  exact room entry member

end Ps2Eth.SmapLinux.Interrupt
