import Ps2Eth.Smap.Transmit

/-!
# Ring and FIFO accounting over whole runs

The accounting invariant of the adapter holds in every state of the two-thread
machine, with the frame under way in `HandleTxReqs` counted in between its copy
and its descriptor.
-/

namespace Ps2Eth.Smap

/-- The segment copied to the FIFO whose descriptor is still to be written. -/
def State.copied (state : State) : List (Nat × Nat) :=
  match state.handler with
  | .bd _ length bdDataPtr => [(bdDataPtr, sizeRounded length)]
  | _ => []

/-- What the tests of `HandleTxReqs` have established where the thread stands. -/
def State.Tested (state : State) : Prop :=
  match state.handler with
  | .copy _ length => state.adapter.drv.numPacketsInTx < smapBdMaxEntry ∧
      sizeRounded length ≤ state.adapter.drv.txBufferSpaceAvailable
  | .bd _ _ _ => state.adapter.drv.numPacketsInTx < smapBdMaxEntry
  | _ => True

/-- The accounting invariant of the machine. -/
structure Settled (state : State) : Prop where
  accounted : state.adapter.Accounted state.copied
  tested : state.Tested

/-- Assignments to the fields outside the accounts keep them. -/
theorem Adapter.Accounted.assign {adapter : Adapter} {copied : List (Nat × Nat)}
    (accounted : adapter.Accounted copied) (packetToSend : Option PbufPtr) (linkStatus : Bool) :
    { adapter with drv := { adapter.drv with
        packetToSend := packetToSend, linkStatus := linkStatus } }.Accounted copied :=
  ⟨accounted.nextIndex, accounted.oldestIndex, accounted.count, accounted.ring, accounted.space,
    accounted.room, accounted.pointer, accounted.laid⟩

/-- After `smap_init` the accounts are settled, with nothing in flight. -/
theorem fresh_settled {state : State} (fresh : Fresh state) : Settled state := by
  obtain ⟨memory, up, initialised⟩ := fresh.adapter
  constructor
  · rw [initialised, State.copied, fresh.handler]
    exact (Adapter.smapInit_accounted memory).assign none up
  · rw [State.Tested, fresh.handler]
    trivial

/-- Every step keeps the accounts.

Proof: by the moves. The descriptors and the FIFO are only touched by the handler, where
it copies a frame, writes its descriptor and takes one back; what it tested before the
copy is part of the invariant, as the copy relies on it. -/
theorem moves_settled {state next : State} {action : Action} (settled : Settled state)
    (moves : Moves state action next) : Settled next := by
  obtain ⟨accounted, tested⟩ := settled
  cases moves with
  | refused | coalesced | whole | enq | linked | unlinked | signal | drain | drained | drainUnlink
    | drainEmpty | drainClear | drainFree | setEvents | waitEvents => exact ⟨accounted, tested⟩
  | take | leave => exact ⟨accounted.assign _ _, tested⟩
  | link => exact ⟨accounted.assign _ _, tested⟩
  | complete index ctrlStat => exact ⟨accounted.complete index ctrlStat, tested⟩
  | handleTxReqs here | handleTxIntr here | peek here | nothing here | full here | dropped here
    | unlink here | unlinkEmpty here | clear here | free here | reaped here =>
    simp only [State.copied, here] at accounted
    exact ⟨accounted, trivial⟩
  | publish here | unpublish here =>
    simp only [State.copied, here] at accounted
    exact ⟨accounted.assign _ _, trivial⟩
  | fits here notFull some room =>
    simp only [State.copied, here] at accounted
    exact ⟨accounted, notFull, room⟩
  | @copy data length dmaOk here =>
    simp only [State.copied, here] at accounted
    simp only [State.Tested, here] at tested
    exact ⟨accounted.copy _ dmaOk tested.2, tested.1⟩
  | bd here =>
    simp only [State.copied, here] at accounted
    simp only [State.Tested, here] at tested
    exact ⟨accounted.queueBd tested, trivial⟩
  | reap here done =>
    simp only [State.copied, here] at accounted
    exact ⟨by simpa only [State.copied, here] using accounted.reap done,
      by simp only [State.Tested, here]⟩

/-- The accounts are settled in every state a run reaches. -/
theorem run_settled {steps : List (State × Action)} {state : State} (run : TxRun steps state) :
    Settled state :=
  Runs.state_invariant Settled (fun _ => fresh_settled)
    (fun _ _ _ settled taken => moves_settled settled (step_moves taken)) run

/-- Every step leaves the hardware only descriptors that are in flight. -/
theorem moves_owned {state next : State} {action : Action} (settled : Settled state)
    (owned : state.adapter.Owned) (moves : Moves state action next) : next.adapter.Owned := by
  obtain ⟨accounted, tested⟩ := settled
  cases moves with
  | refused | coalesced | whole | enq | linked | unlinked | signal | drain | drained | drainUnlink
    | drainEmpty | drainClear | drainFree | setEvents | waitEvents | handleTxReqs | handleTxIntr
    | peek | nothing | fits | full | dropped | copy | unlink | unlinkEmpty | clear | free
    | reaped => exact owned
  | take | leave | link | publish | unpublish => exact owned
  | complete index ctrlStat => exact owned.complete index ctrlStat
  | bd here =>
    simp only [State.Tested, here] at tested
    exact owned.queueBd accounted tested _ _
  | reap here done => exact owned.reap done

/-- So it is in every state a run reaches. -/
theorem run_owned {steps : List (State × Action)} {state : State} (run : TxRun steps state) :
    state.adapter.Owned := by
  induction run with
  | start fresh =>
    obtain ⟨memory, up, initialised⟩ := fresh.adapter
    rw [initialised]
    exact Adapter.smapInit_owned memory
  | snoc before taken inductionHypothesis =>
    exact moves_owned (run_settled before) inductionHypothesis (step_moves taken)

/-- Where `reap` ends the loop of `HandleTxIntr`, there is nothing in flight, or the
oldest frame in flight is still the hardware's. -/
theorem Adapter.reap_none {adapter : Adapter} (ended : adapter.reap = none) :
    adapter.drv.numPacketsInTx = 0 ∨
      (adapter.bd (adapter.drv.txDNVBDIndex % smapBdMaxEntry)).ready = true := by
  unfold Adapter.reap at ended
  split at ended
  next =>
    dsimp only at ended
    split at ended
    · next ready => exact Or.inr ready
    · cases ended
  next none => exact Or.inl (Nat.eq_zero_of_not_pos none)

/-- `HandleTxIntr` goes on, or has come to its end. -/
theorem moves_txIntr {state next : State} {action : Action} (moves : Moves state action next)
    (here : state.handler = .txIntr) :
    next.handler = .txIntr ∨ next.adapter.drv.numPacketsInTx = 0 ∨
      (next.adapter.bd (next.adapter.drv.txDNVBDIndex % smapBdMaxEntry)).ready = true := by
  cases moves with
  | reaped _ ended => exact Or.inr (Adapter.reap_none ended)
  | refused | coalesced | whole | enq | linked | unlinked | signal | take | leave | drain | drained
    | drainUnlink | drainEmpty | drainClear | drainFree | setEvents | complete | reap =>
    exact Or.inl here
  | handleTxReqs elsewhere | handleTxIntr elsewhere | peek elsewhere | nothing elsewhere
    | publish elsewhere | fits elsewhere | dropped elsewhere | full elsewhere | copy elsewhere
    | bd elsewhere | unpublish elsewhere | unlink elsewhere | unlinkEmpty elsewhere
    | clear elsewhere | free elsewhere | link _ elsewhere | waitEvents elsewhere =>
    rw [here] at elsewhere
    cases elsewhere

/-- The books of the driver and the hardware after a run. -/
structure TxAccounts (steps : List (State × Action)) (state : State) : Prop where
  count : state.adapter.drv.numPacketsInTx =
    (state.adapter.drv.txBDIndex + 256 - state.adapter.drv.txDNVBDIndex) % 256
  ring : state.adapter.drv.numPacketsInTx ≤ smapBdMaxEntry
  space : state.adapter.drv.txBufferSpaceAvailable +
    (state.adapter.inFlight.map fun bd => sizeRounded bd.length).sum = smapTxBufsize
  /-- The descriptor about to be written is none of those in flight. -/
  freeSlot : ∀ data length bdDataPtr, state.handler = .bd data length bdDataPtr →
    ∀ offset < state.adapter.drv.numPacketsInTx,
      (state.adapter.drv.txDNVBDIndex + offset) % smapBdMaxEntry ≠
        state.adapter.drv.txBDIndex % smapBdMaxEntry
  /-- No byte of the FIFO lies in the regions of two frames in flight. -/
  apart : state.adapter.inFlight.Pairwise fun older newer =>
    DataPort.Apart smapTxBufsize (older.pointer, sizeRounded older.length)
      (newer.pointer, sizeRounded newer.length)
  /-- A READY descriptor is one of those in flight. -/
  ready : state.adapter.Owned
  /-- `HandleTxIntr` stops only where nothing is in flight, or at a READY descriptor. -/
  stops : ∀ entry ∈ steps, entry.1.handler = .txIntr → ∀ next, entry.1.step entry.2 = some next →
    next.handler = .txIntr ∨ next.adapter.drv.numPacketsInTx = 0 ∨
      (next.adapter.bd (next.adapter.drv.txDNVBDIndex % smapBdMaxEntry)).ready = true

/-- Ring and FIFO accounting: whatever frames are handed over, whatever DMA
transfers fail and whenever the hardware finishes a frame.

Proof: the invariant `Settled` holds in every state reached, and the accounts are read
from it: the counter is the distance of the two indices, the bytes are those of the
segments, and these are laid one behind the other. What `HandleTxIntr` stops at is said by
the step itself. -/
theorem tx_accounting {steps : List (State × Action)} {state : State} (run : TxRun steps state) :
    TxAccounts steps state := by
  obtain ⟨accounted, tested⟩ := run_settled run
  refine ⟨accounted.count, accounted.ring, ?_, ?_, ?_, run_owned run, ?_⟩
  · have space := accounted.space
    rw [Adapter.segments, DataPort.total, List.map_map] at space
    exact space
  · intro data length bdDataPtr here offset inFlight
    simp only [State.Tested, here] at tested
    exact accounted.next_slot_free tested inFlight
  · have apart := accounted.apart
    rw [Adapter.segments, List.pairwise_map] at apart
    exact apart
  · intro entry _ here next taken
    exact moves_txIntr (step_moves taken) here

/-- Two frames are sent, and the first of them is finished and taken back, which leaves
the one of six bytes in flight. -/
theorem tx_accounting_two_frames : ∃ steps state, TxRun steps state ∧
    state.adapter.drv.txDNVBDIndex = 1 ∧ state.adapter.drv.numPacketsInTx = 1 ∧
    state.adapter.drv.txBufferSpaceAvailable = 4088 ∧ state.handler = .idle ∧
    TxAccounts steps state := by
  obtain ⟨steps, state, run, oldest, inFlight, space, idle⟩ := Runs.run_of_performed State.step
    (fun _ state => state.adapter.drv.txDNVBDIndex = 1 ∧ state.adapter.drv.numPacketsInTx = 1 ∧
      state.adapter.drv.txBufferSpaceAvailable = 4088 ∧ state.handler = .idle)
    freshDriver_fresh (.link true :: (outputActions (plainCall 0 5 1) ++
      outputActions (plainCall 1 6 2) ++ txReqsActions 19 ++
      [.complete 0 0, .handleTxIntr, .handler true, .handler true])) (by decide)
  exact ⟨steps, state, run, oldest, inFlight, space, idle, tx_accounting run⟩

end Ps2Eth.Smap
