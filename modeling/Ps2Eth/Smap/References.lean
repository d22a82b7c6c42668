import Ps2Eth.Smap.Transmit

/-!
# The references the driver holds

Every pbuf in the queue, and every pbuf a thread is about to queue or to give
back, is covered by a reference of its own, whatever the network stack hands
over. Memory that `pbuf_coalesce` may take is therefore never in the queue.
-/

namespace Ps2Eth.Smap

/-- One for a member of the list, zero for any other pbuf. -/
def listed (pbufs : List PbufPtr) (pbuf : PbufPtr) : Nat := if pbuf ∈ pbufs then 1 else 0

/-- The reference `IntrHandlerThread` is about to give back. -/
def HandlerPc.holds (pc : HandlerPc) (pbuf : PbufPtr) : Nat :=
  match pc with
  | .clear toFree | .free toFree => listed [toFree] pbuf
  | _ => 0

/-- The reference the TCP/IP thread has for the pbuf it is about to queue or to
give back. -/
def TcpipPc.holds (pc : TcpipPc) (pbuf : PbufPtr) : Nat :=
  match pc with
  | .enq tx => listed [tx] pbuf
  | .drainClear toFree | .drainFree toFree => listed [toFree] pbuf
  | _ => 0

/-- Each pbuf's references cover its place in the queue and the threads. -/
def State.Covered (state : State) (pbufs : List PbufPtr) : Prop :=
  ∀ pbuf, listed pbufs pbuf + state.handler.holds pbuf + state.tcpip.holds pbuf ≤
    (state.queue.pbufs pbuf).refs

/-- The queue is finite and its pbufs are covered. -/
def State.Held (state : State) : Prop :=
  ∃ pbufs, state.queue.Queued pbufs ∧ state.Covered pbufs

/-- A pbuf of one list that is in another one too counts there as well. -/
theorem listed_mono {pbufs more : List PbufPtr} {pbuf : PbufPtr}
    (inside : pbuf ∈ pbufs → pbuf ∈ more) : listed pbufs pbuf ≤ listed more pbuf := by
  unfold listed
  split
  next member => simp [inside member]
  · omega

/-- A pbuf counts once for the first of the list and once for the rest, if the first is
not in the rest. -/
theorem listed_cons (first : PbufPtr) (rest : List PbufPtr) (pbuf : PbufPtr) (new : first ∉ rest) :
    listed (first :: rest) pbuf = listed [first] pbuf + listed rest pbuf := by
  unfold listed
  by_cases same : pbuf = first
  · subst same
    simp [new]
  · simp [same]

/-- A list that gains at most one pbuf counts at most that one more. -/
theorem listed_le_of_subset {longer pbufs : List PbufPtr} {tx : PbufPtr}
    (inside : ∀ pbuf ∈ longer, pbuf ∈ pbufs ∨ pbuf = tx) (pbuf : PbufPtr) :
    listed longer pbuf ≤ listed pbufs pbuf + listed [tx] pbuf := by
  unfold listed
  by_cases member : pbuf ∈ longer
  · rcases inside pbuf member with old | new
    · simp [member, old]
    · subst new
      simp only [member, List.mem_singleton, ↓reduceIte]
      omega
  · simp [member]

namespace TxQueue

/-- A reference is taken on one pbuf, and no other count changes. -/
@[simp] theorem pbufRef_refs (queue : TxQueue) (pbuf tested : PbufPtr) :
    ((queue.pbufRef pbuf).pbufs tested).refs = (queue.pbufs tested).refs + listed [pbuf] tested := by
  by_cases same : tested = pbuf
  · subst same
    simp [pbufRef, store, listed]
  · simp [pbufRef, store, listed, same]

/-- A reference is given back on one pbuf, and no other count changes. -/
@[simp] theorem pbufFree_refs (queue : TxQueue) (pbuf tested : PbufPtr) :
    ((queue.pbufFree pbuf).pbufs tested).refs = (queue.pbufs tested).refs - listed [pbuf] tested := by
  by_cases same : tested = pbuf
  · subst same
    simp [pbufFree, store, listed]
  · simp [pbufFree, store, listed, same]

/-- A link says nothing about references. -/
@[simp] theorem setNext_refs (queue : TxQueue) (pbuf tested : PbufPtr) (link : Option PbufPtr) :
    ((queue.setNext pbuf link).pbufs tested).refs = (queue.pbufs tested).refs :=
  setNext_field Pbuf.refs (fun _ _ => rfl) queue pbuf tested link

/-- Queueing takes no reference: the caller took it before. -/
@[simp] theorem enQTxPacket_refs (queue : TxQueue) (tx tested : PbufPtr) :
    ((queue.enQTxPacket tx).pbufs tested).refs = (queue.pbufs tested).refs :=
  enQTxPacket_field Pbuf.refs (fun _ _ => rfl) queue tx tested

/-- The bytes of a frame are written without touching any count. -/
@[simp] theorem fill_refs (queue : TxQueue) (call : OutputCall) (tested : PbufPtr) :
    ((queue.fill call).pbufs tested).refs = (queue.pbufs tested).refs := by
  by_cases same : tested = call.pOutput
  · subst same
    simp [fill, store]
  · simp [fill, store, same]

/-- They are written without touching any link. -/
@[simp] theorem fill_next (queue : TxQueue) (call : OutputCall) :
    (queue.fill call).next = queue.next := store_next _ _ _ rfl

/-- The queue after taking memory for a copy: only the copy's own pbuf is
touched. -/
theorem store_queued {queue : TxQueue} {pbufs : List PbufPtr} {copy : PbufPtr} (pbuf : Pbuf)
    (outside : copy ∉ pbufs) : (queue.store copy pbuf).Queued pbufs ↔ queue.Queued pbufs := by
  have links : (queue.store copy pbuf).next = Function.update queue.next copy pbuf.next := by
    funext tested
    by_cases same : tested = copy
    · subst same
      simp [next, store]
    · simp [next, store, same]
  simp only [Queued, links]
  exact Linked.chain_update_outside _ outside

/-- A store sets the count of the pbuf it goes to. -/
theorem store_refs (queue : TxQueue) (copy tested : PbufPtr) (pbuf : Pbuf) :
    ((queue.store copy pbuf).pbufs tested).refs =
      if tested = copy then pbuf.refs else (queue.pbufs tested).refs := by
  by_cases same : tested = copy <;> simp [store, same]

/-- A reference taken leaves the queue as it is. -/
@[simp] theorem pbufRef_queued (queue : TxQueue) (pbuf : PbufPtr) (pbufs : List PbufPtr) :
    (queue.pbufRef pbuf).Queued pbufs ↔ queue.Queued pbufs := by
  simp only [Queued, pbufRef_next]
  rfl

/-- A reference given back leaves the queue as it is. -/
@[simp] theorem pbufFree_queued (queue : TxQueue) (pbuf : PbufPtr) (pbufs : List PbufPtr) :
    (queue.pbufFree pbuf).Queued pbufs ↔ queue.Queued pbufs := by
  simp only [Queued, pbufFree_next]
  rfl

/-- Filling a pbuf leaves the queue as it is, even if that pbuf is in it. -/
@[simp] theorem fill_queued (queue : TxQueue) (call : OutputCall) (pbufs : List PbufPtr) :
    (queue.fill call).Queued pbufs ↔ queue.Queued pbufs := by
  simp only [Queued, fill_next]
  rfl

/-- Clearing a link keeps the queue finite and adds nothing to it. -/
theorem setNext_none_queued {queue : TxQueue} {pbufs : List PbufPtr} (pbuf : PbufPtr)
    (queued : queue.Queued pbufs) :
    ∃ shorter, (queue.setNext pbuf none).Queued shorter ∧ shorter <+: pbufs := by
  simp only [Queued, setNext_next, setNext_txTail]
  exact Linked.chain_clear pbuf queued

end TxQueue

/-- A pbuf without references is neither queued nor in a thread's hands. -/
theorem State.Covered.unused {state : State} {pbufs : List PbufPtr} {pbuf : PbufPtr}
    (covered : state.Covered pbufs) (unused : (state.queue.pbufs pbuf).refs = 0) :
    pbuf ∉ pbufs ∧ state.handler.holds pbuf = 0 ∧ state.tcpip.holds pbuf = 0 := by
  have cover := covered pbuf
  rw [unused] at cover
  refine ⟨?_, by omega, by omega⟩
  intro member
  simp only [listed, member, ↓reduceIte] at cover
  omega

/-- Before the first frame nothing is queued or in hand, so no reference is held. -/
theorem fresh_held {state : State} (fresh : Fresh state) : state.Held := by
  refine ⟨[], fresh.txTail, ?_⟩
  intro pbuf
  simp [fresh.handler, fresh.tcpip, HandlerPc.holds, TcpipPc.holds, listed]

/-- Taking the oldest pbuf out of a finite queue leaves some of the others. -/
theorem unlinkTail_shorter {queue : TxQueue} {pbufs : List PbufPtr} {toFree : PbufPtr}
    (queued : queue.Queued pbufs) (oldest : queue.txTail = some toFree) :
    ∃ rest shorter, pbufs = toFree :: rest ∧ queue.unlinkTail.2.Queued shorter ∧ shorter <+: rest := by
  have chain : Linked.Chain queue.next (some toFree) pbufs := oldest ▸ queued
  obtain ⟨rest, rfl, _⟩ := Linked.chain_some chain
  obtain ⟨shorter, after, early⟩ := TxQueue.unlinkTail_queued queued
  exact ⟨rest, shorter, rfl, after, early⟩

/-- Taking the oldest pbuf out of the queue moves its cover to the thread. -/
theorem unlinkTail_covered {queue : TxQueue} {pbufs : List PbufPtr} {toFree : PbufPtr}
    (queued : queue.Queued pbufs) (oldest : queue.txTail = some toFree) :
    ∃ shorter, queue.unlinkTail.2.Queued shorter ∧
      ∀ pbuf, listed shorter pbuf + listed [toFree] pbuf ≤ listed pbufs pbuf := by
  obtain ⟨rest, shorter, rfl, after, early⟩ := unlinkTail_shorter queued oldest
  refine ⟨shorter, after, ?_⟩
  intro pbuf
  rw [listed_cons toFree rest pbuf (List.nodup_cons.mp (Linked.chain_nodup queued)).1]
  have inside : listed shorter pbuf ≤ listed rest pbuf := listed_mono fun member => early.subset member
  omega

/-- Queueing a pbuf adds that one to the queue at most. -/
theorem enQTxPacket_listed {queue : TxQueue} {pbufs : List PbufPtr} (tx : PbufPtr)
    (queued : queue.Queued pbufs) :
    ∃ longer, (queue.enQTxPacket tx).Queued longer ∧
      ∀ pbuf, listed longer pbuf ≤ listed pbufs pbuf + listed [tx] pbuf := by
  obtain ⟨longer, after, inside⟩ := TxQueue.enQTxPacket_queued tx queued
  exact ⟨longer, after, listed_le_of_subset inside⟩

/-- Clearing a link adds none. -/
theorem setNext_none_listed {queue : TxQueue} {pbufs : List PbufPtr} (toFree : PbufPtr)
    (queued : queue.Queued pbufs) :
    ∃ shorter, (queue.setNext toFree none).Queued shorter ∧
      ∀ pbuf, listed shorter pbuf ≤ listed pbufs pbuf := by
  obtain ⟨shorter, after, early⟩ := TxQueue.setNext_none_queued toFree queued
  refine ⟨shorter, after, ?_⟩
  intro pbuf
  exact listed_mono fun member => early.subset member

/-- Every step keeps the queue finite and its pbufs covered.

Proof: by the moves. What covers the references of a pbuf is the queue, the pbuf that the
handler holds and the one that the TCP/IP thread holds; each move passes a pbuf from one
to the other or leaves all three. -/
theorem moves_held {state next : State} {action : Action} (held : state.Held)
    (moves : Moves state action next) : next.Held := by
  obtain ⟨pbufs, queued, covered⟩ := held
  cases moves with
  | linked here | unlinked here | signal here | take here | leave here | drain here | drained here
    | drainEmpty here =>
    refine ⟨pbufs, queued, fun pbuf => ?_⟩
    have cover := covered pbuf
    simpa only [here, TcpipPc.holds, State.setPacketToSend_queue, State.setPacketToSend_handler] using cover
  | handleTxReqs here | handleTxIntr here | peek here | nothing here | publish here | fits here
    | dropped here | full here | copy here | bd here | unpublish here | unlinkEmpty here
    | reaped here =>
    refine ⟨pbufs, queued, fun pbuf => ?_⟩
    have cover := covered pbuf
    simpa only [here, HandlerPc.holds, State.setPacketToSend_queue, State.setPacketToSend_tcpip] using cover
  | reap | complete | link | setEvents | waitEvents => exact ⟨pbufs, queued, covered⟩
  | @refused call here =>
    refine ⟨pbufs, by simpa using queued, fun pbuf => ?_⟩
    have cover := covered pbuf
    simp only [TxQueue.pbufRef_refs]
    omega
  | @whole call here =>
    refine ⟨pbufs, by simpa using queued, fun pbuf => ?_⟩
    have cover := covered pbuf
    simp only [here, TcpipPc.holds] at cover
    simp only [TxQueue.pbufRef_refs, TxQueue.fill_refs, TcpipPc.holds]
    omega
  | @coalesced call copy here split given other unused =>
    obtain ⟨outside, noHandler, noTcpip⟩ := covered.unused unused
    refine ⟨pbufs, (TxQueue.store_queued _ outside).mpr (by simpa using queued),
      fun pbuf => ?_⟩
    have cover := covered pbuf
    simp only [here, TcpipPc.holds] at cover
    simp only [TxQueue.store_refs, TxQueue.pbufFree_refs, TxQueue.pbufRef_refs, TcpipPc.holds,
      OutputCall.copied]
    by_cases same : pbuf = copy
    · subst same
      simp [listed, outside, noHandler]
    · simp only [same, ↓reduceIte, listed, List.mem_singleton] at cover ⊢
      omega
  | @enq tx here =>
    obtain ⟨longer, after, bound⟩ := enQTxPacket_listed tx queued
    refine ⟨longer, after, fun pbuf => ?_⟩
    have cover := covered pbuf
    have more := bound pbuf
    simp only [here, TcpipPc.holds] at cover
    simp only [TxQueue.enQTxPacket_refs, TcpipPc.holds]
    omega
  | @drainUnlink toFree here oldest =>
    obtain ⟨shorter, after, bound⟩ := unlinkTail_covered queued oldest
    refine ⟨shorter, after, fun pbuf => ?_⟩
    have cover := covered pbuf
    have moved := bound pbuf
    simp only [here, TcpipPc.holds] at cover
    simp only [TxQueue.unlinkTail_pbufs, TcpipPc.holds]
    omega
  | @unlink data toFree dmaOk here oldest =>
    obtain ⟨shorter, after, bound⟩ := unlinkTail_covered queued oldest
    refine ⟨shorter, after, fun pbuf => ?_⟩
    have cover := covered pbuf
    have moved := bound pbuf
    simp only [here, HandlerPc.holds] at cover
    simp only [TxQueue.unlinkTail_pbufs, HandlerPc.holds]
    omega
  | @drainClear toFree here =>
    obtain ⟨shorter, after, bound⟩ := setNext_none_listed toFree queued
    refine ⟨shorter, after, fun pbuf => ?_⟩
    have cover := covered pbuf
    have fewer := bound pbuf
    simp only [here, TcpipPc.holds] at cover
    simp only [TxQueue.setNext_refs, TcpipPc.holds]
    omega
  | @clear toFree dmaOk here =>
    obtain ⟨shorter, after, bound⟩ := setNext_none_listed toFree queued
    refine ⟨shorter, after, fun pbuf => ?_⟩
    have cover := covered pbuf
    have fewer := bound pbuf
    simp only [here, HandlerPc.holds] at cover
    simp only [TxQueue.setNext_refs, HandlerPc.holds]
    omega
  | @drainFree toFree here =>
    refine ⟨pbufs, by simpa using queued, fun pbuf => ?_⟩
    have cover := covered pbuf
    simp only [here, TcpipPc.holds] at cover
    simp only [TxQueue.pbufFree_refs, TcpipPc.holds]
    omega
  | @free toFree dmaOk here =>
    refine ⟨pbufs, by simpa using queued, fun pbuf => ?_⟩
    have cover := covered pbuf
    simp only [here, HandlerPc.holds] at cover
    simp only [TxQueue.pbufFree_refs, HandlerPc.holds]
    omega

/-- Every run keeps the queue finite and its pbufs covered. -/
theorem run_held {steps : List (State × Action)} {state : State} (run : TxRun steps state) :
    state.Held :=
  Runs.state_invariant State.Held (fun _ => fresh_held)
    (fun _ _ _ held taken => moves_held held (step_moves taken)) run

end Ps2Eth.Smap
