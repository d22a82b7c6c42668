import Ps2Eth.Smap.References
import Ps2Eth.Smap.TxAccounting
import Ps2Eth.Smap.TxDequeue

/-!
# Ordered transmission while the link stays up

Two histories are read off a run: the frames accepted by `EnQTxPacket` and the
frames the hardware finds behind each descriptor when it is written. With the
link up, the first is the second followed by the software queue.

One order of steps breaks this. `SMapTxPacketDeQ` clears the link of the pbuf it
removed after interrupts are back on. If the network stack has handed that pbuf
over again by then, and another one behind it, the clearing cuts the queue.
-/

namespace Ps2Eth.Smap

/-- The frame accepted in a step. -/
def accepted (state : State) : Action → List (List UInt8)
  | .tcpip => match state.tcpip with
    | .enq tx => [(state.queue.pbufs tx).frame]
    | _ => []
  | _ => []

/-- The frame behind the descriptor written in a step, as the hardware reads it. -/
def written (state : State) : Action → List (List UInt8)
  | .handler _ => match state.handler with
    | .bd _ length bdDataPtr =>
        let adapter := state.adapter.queueBd length bdDataPtr
        [adapter.frameOf (adapter.bd (state.adapter.drv.txBDIndex % smapBdMaxEntry))]
    | _ => []
  | _ => []

/-- The queue without the frame that has its descriptor already and is about to
be removed. -/
def State.unsent (state : State) (pbufs : List PbufPtr) : List PbufPtr :=
  match state.handler with
  | .unpublish _ | .deq _ => pbufs.tail
  | _ => pbufs

/-- The bytes of queued pbufs. -/
def State.frames (state : State) (pbufs : List PbufPtr) : List (List UInt8) :=
  pbufs.map fun pbuf => (state.queue.pbufs pbuf).frame

/-- Ordered exactly-once transmission, as seen after some steps: the frames
accepted are those written, in order, and then those waiting from `TxTail` to
`TxHead`; the last frames written stand unharmed behind the descriptors in
flight. -/
structure Transmits (steps : List (State × Action)) (state : State) : Prop where
  order : ∃ pbufs, state.queue.Intact pbufs ∧
    Runs.observed accepted steps = Runs.observed written steps ++ state.frames (state.unsent pbufs)
  flying : ∃ sent, Runs.observed written steps =
    sent ++ state.adapter.inFlight.map state.adapter.frameOf

/-- The hand-overs considered: the link is up and stays up, and a pbuf handed
over is not in the queue at that moment. -/
structure HandsOver (state : State) (action : Action) : Prop where
  staysUp : action ≠ .link false
  linked : ∀ call, action = .output call → state.adapter.drv.linkStatus = true
  outside : ∀ call, action = .output call → ∀ pbufs, state.queue.Queued pbufs → call.pOutput ∉ pbufs

/-- When `SMapTxPacketDeQ` clears the link of the pbuf it removed, that pbuf is
not back in the queue with another one behind it. -/
def ClearsNoLink (state : State) (action : Action) : Prop :=
  ∀ dmaOk toFree, action = .handler dmaOk → state.handler = .clear toFree →
    ∀ pbufs, state.queue.Queued pbufs → toFree ∈ pbufs → state.queue.next toFree = none

/-- With the link up the TCP/IP thread stays out of `ClearPacketQueue`. -/
def State.Linked (state : State) : Prop :=
  match state.tcpip with
  | .idle | .setEvent => True
  | .enq _ | .xmit => state.adapter.drv.linkStatus = true
  | _ => False

/-- With the link up and hand-overs that keep it so, the TCP/IP thread stays out of
`ClearPacketQueue`. -/
theorem moves_linked {state next : State} {action : Action} (linked : state.Linked)
    (given : HandsOver state action) (moves : Moves state action next) : next.Linked := by
  cases moves with
  | refused | handleTxReqs | handleTxIntr | peek | nothing | publish | fits | dropped | full | copy
    | bd | unpublish | unlink | unlinkEmpty | clear | free | reaped | complete | setEvents
    | waitEvents => exact linked
  | coalesced | whole => exact given.linked _ rfl
  | enq here => simpa only [State.Linked, here] using linked
  | linked | signal => trivial
  | unlinked here down => simp [State.Linked, here, down] at linked
  | take here | leave here | drain here | drained here | drainUnlink here | drainEmpty here
    | drainClear here | drainFree here => simp [State.Linked, here] at linked
  | reap here done =>
    have same := (Adapter.reap_cases done).2.2.2.2.2.2.2.2.2
    simpa only [State.Linked, same] using linked
  | link up here =>
    cases up with
    | false => exact absurd rfl given.staysUp
    | true =>
      cases here : state.tcpip with
      | idle | setEvent | enq | xmit => simp [State.Linked, State.setLinkStatus, here]
      | _ => simp [State.Linked, here] at linked

/-- With the link up the two users of the queue keep apart. -/
theorem State.Linked.keepsApart {state : State} (linked : state.Linked) (action : Action) :
    KeepsApart state action := by
  constructor
  · intro _ here
    simp [State.Linked, here] at linked
  · intro _ _ _ _
    cases here : state.tcpip with
    | idle | setEvent | enq | xmit => rfl
    | _ => simp [State.Linked, here] at linked

/-- No step changes the frame in a queued pbuf. -/
theorem moves_content {pbufs : List PbufPtr} {state next : State} {action : Action}
    (queued : state.queue.Queued pbufs) (covered : state.Covered pbufs)
    (given : HandsOver state action) (moves : Moves state action next) {pbuf : PbufPtr}
    (member : pbuf ∈ pbufs) :
    (next.queue.pbufs pbuf).content = (state.queue.pbufs pbuf).content := by
  cases moves with
  | linked | unlinked | signal | take | leave | drain | drained | drainEmpty | handleTxReqs
    | handleTxIntr | peek | nothing | publish | fits | dropped | full | copy | bd | unpublish
    | unlinkEmpty | reap | reaped | complete | link | setEvents | waitEvents => rfl
  | drainUnlink | unlink => rw [TxQueue.unlinkTail_pbufs]
  | refused => exact TxQueue.pbufRef_content _ _ _
  | drainFree | free => exact TxQueue.pbufFree_content _ _ _
  | drainClear | clear => exact TxQueue.setNext_content _ _ _ _
  | enq => exact TxQueue.enQTxPacket_content _ _ _
  | @whole call =>
    have other : pbuf ≠ call.pOutput := fun same =>
      given.outside call rfl pbufs queued (same ▸ member)
    rw [TxQueue.pbufRef_content]
    exact TxQueue.store_content fun same => absurd same other
  | @coalesced call copy here split known other unused =>
    have apart : pbuf ≠ copy := fun same => (covered.unused unused).1 (same ▸ member)
    rw [TxQueue.store_content fun same => absurd same apart, TxQueue.pbufFree_content,
      TxQueue.pbufRef_content]

/-- Frames of queued pbufs read the same before and after a step. -/
theorem frames_congr {pbufs : List PbufPtr} {state next : State}
    (same : ∀ pbuf ∈ pbufs,
      (next.queue.pbufs pbuf).content = (state.queue.pbufs pbuf).content) :
    next.frames pbufs = state.frames pbufs :=
  List.map_congr_left fun pbuf member => content_frame (same pbuf member)

/-- The pbufs queued after a step. -/
def State.queuedAfter (state : State) (pbufs : List PbufPtr) : Action → List PbufPtr
  | .tcpip => match state.tcpip with
    | .enq tx => pbufs ++ [tx]
    | _ => pbufs
  | .handler _ => match state.handler with
    | .deq _ => pbufs.tail
    | _ => pbufs
  | _ => pbufs

/-- A pbuf about to be queued is not in the queue. -/
def State.Waiting (state : State) (pbufs : List PbufPtr) : Prop :=
  ∀ tx, state.tcpip = .enq tx → tx ∉ pbufs

/-- A queue with the same links and ends is as whole. -/
theorem intact_congr {queue other : TxQueue} {pbufs : List PbufPtr} (intact : queue.Intact pbufs)
    (links : other.next = queue.next) (tail : other.txTail = queue.txTail)
    (head : other.txHead = queue.txHead) : other.Intact pbufs := by
  refine ⟨?_, head.trans intact.ends⟩
  rw [TxQueue.Queued, links, tail]
  exact intact.queued

/-- The queue stays whole, unless a link in it is cleared.

Proof: by the moves. Queueing adds at the end, unlinking takes from the head, and clearing
the link of a pbuf that is no longer in the queue leaves all links in it. -/
theorem moves_intact {pbufs : List PbufPtr} {state next : State} {action : Action}
    (intact : state.queue.Intact pbufs) (covered : state.Covered pbufs) (linked : state.Linked)
    (waiting : state.Waiting pbufs) (given : HandsOver state action)
    (clears : ClearsNoLink state action) (moves : Moves state action next) :
    next.queue.Intact (state.queuedAfter pbufs action) ∧
      next.Waiting (state.queuedAfter pbufs action) := by
  cases moves with
  | handleTxReqs | handleTxIntr | complete | link | setEvents | waitEvents => exact ⟨intact, waiting⟩
  | peek here | nothing here | publish here | fits here | dropped here | full here | copy here
    | bd here | unpublish here | reap here | reaped here =>
    simp only [State.queuedAfter, here]
    exact ⟨intact, waiting⟩
  | linked here | signal here =>
    simp only [State.queuedAfter, here]
    exact ⟨intact, by simp [State.Waiting]⟩
  | unlinked here down => simp [State.Linked, here, down] at linked
  | take here | leave here | drain here | drained here | drainUnlink here | drainEmpty here
    | drainClear here | drainFree here => simp [State.Linked, here] at linked
  | refused here =>
    exact ⟨intact_congr intact (by simp) rfl rfl, waiting⟩
  | whole here =>
    refine ⟨intact_congr intact (by simp) rfl rfl, ?_⟩
    intro tx atTx
    cases atTx
    exact given.outside _ rfl pbufs intact.queued
  | coalesced here split known other unused =>
    have outside := (covered.unused unused).1
    refine ⟨⟨(TxQueue.store_queued _ outside).mpr (by simpa using intact.queued), intact.ends⟩, ?_⟩
    intro tx atTx
    cases atTx
    exact outside
  | enq here =>
    simp only [State.queuedAfter, here]
    exact ⟨TxQueue.enQTxPacket_intact intact (waiting _ here), by simp [State.Waiting]⟩
  | @unlink data toFree dmaOk here oldest =>
    have chain : Linked.Chain state.queue.next (some toFree) pbufs := oldest ▸ intact.queued
    obtain ⟨rest, rfl, _⟩ := Linked.chain_some chain
    simp only [State.queuedAfter, here]
    exact ⟨TxQueue.unlinkTail_intact intact,
      fun tx atTx member => waiting tx atTx (List.mem_cons_of_mem _ member)⟩
  | unlinkEmpty here empty =>
    have chain : Linked.Chain state.queue.next none pbufs := empty ▸ intact.queued
    obtain rfl := Linked.chain_none chain
    simp only [State.queuedAfter, here]
    exact ⟨intact, waiting⟩
  | @clear toFree dmaOk here =>
    simp only [State.queuedAfter, here]
    refine ⟨TxQueue.setNext_none_intact intact ?_, waiting⟩
    intro member
    have stop := clears dmaOk toFree rfl here pbufs intact.queued member
    rw [intact.ends]
    exact Linked.last_of_next_none intact.queued member stop
  | free here =>
    simp only [State.queuedAfter, here]
    exact ⟨intact_congr intact (by simp) rfl rfl, waiting⟩

/-- What `HandleTxReqs` read of the oldest pbuf is still so where the thread
stands, and what it copied is in the FIFO. -/
def State.Measured (state : State) : Prop :=
  match state.handler with
  | .publish data length | .test data length | .copy data length =>
      length = (state.queue.pbufs data).len
  | .bd data length bdDataPtr =>
      length = (state.queue.pbufs data).len ∧
        Ring.window state.adapter.fifo.cells smapTxBufsize bdDataPtr length =
          (state.queue.pbufs data).frame
  | _ => True

/-- A step that leaves the handler's place, the oldest frame and the FIFO keeps
what was read and copied. -/
theorem measured_congr {state next : State} (measured : state.Measured)
    (handler : next.handler = state.handler) (fifo : next.adapter.fifo = state.adapter.fifo)
    (content : ∀ data, state.handler.peeked = some data →
      (next.queue.pbufs data).content = (state.queue.pbufs data).content) : next.Measured := by
  cases here : state.handler with
  | publish data length | test data length | copy data length =>
    obtain ⟨_, len⟩ := Prod.mk.inj (content data (by rw [here]; rfl))
    simp only [State.Measured, here] at measured
    simpa only [State.Measured, handler, here, len] using measured
  | bd data length bdDataPtr =>
    have same := content data (by rw [here]; rfl)
    obtain ⟨_, len⟩ := Prod.mk.inj same
    simp only [State.Measured, here] at measured
    simpa only [State.Measured, handler, here, len, fifo, content_frame same] using measured
  | _ => simp only [State.Measured, handler, here]

/-- Every step keeps what `HandleTxReqs` read and copied. -/
theorem moves_measured {state next : State} {action : Action} (measured : state.Measured)
    (settled : Settled state)
    (content : ∀ data, state.handler.peeked = some data →
      (next.queue.pbufs data).content = (state.queue.pbufs data).content)
    (moves : Moves state action next) : next.Measured := by
  cases moves with
  | refused | coalesced | whole | enq | linked | unlinked | signal | take | leave | drain | drained
    | drainUnlink | drainEmpty | drainClear | drainFree | complete | setEvents =>
    exact measured_congr measured rfl rfl content
  | handleTxReqs | handleTxIntr | nothing | dropped | full | bd | unpublish | unlink | unlinkEmpty
    | clear | free | reaped => trivial
  | link _ here | waitEvents here | reap here =>
    simp only [State.Measured, State.setLinkStatus, here]
  | peek => exact rfl
  | publish here =>
    simpa only [State.Measured, here, State.setPacketToSend_queue] using measured
  | fits here => simpa only [State.Measured, here] using measured
  | @copy data length dmaOk here =>
    simp only [State.Measured, here] at measured
    subst measured
    obtain ⟨accounted, tested⟩ := settled
    simp only [State.copied, here] at accounted
    simp only [State.Tested, here] at tested
    exact ⟨rfl, accounted.copy_frame _ dmaOk tested.2⟩

/-- The hardware's frame behind the descriptor just written. -/
theorem Adapter.queueBd_frame {adapter : Adapter} {length bdDataPtr : Nat}
    (accounted : adapter.Accounted [(bdDataPtr, sizeRounded length)]) :
    (adapter.queueBd length bdDataPtr).frameOf
        ((adapter.queueBd length bdDataPtr).bd (adapter.drv.txBDIndex % smapBdMaxEntry)) =
      Ring.window adapter.fifo.cells smapTxBufsize bdDataPtr length := by
  have short : length % 65536 = length := by
    have room := accounted.room
    have space := accounted.space
    have rounded := sizeRounded_bounds length
    simp only [DataPort.total_cons, DataPort.total_nil, smapTxBufsize] at room space
    omega
  simp only [Adapter.frameOf, Adapter.queueBd, Function.update_self, short]

/-- The frames in flight are the last ones written. -/
def Flying (steps : List (State × Action)) (state : State) : Prop :=
  ∃ sent, Runs.observed written steps = sent ++ state.adapter.inFlight.map state.adapter.frameOf

/-- Every step keeps it that the frames in flight are the last ones written: a descriptor
written adds one behind, and one taken back leaves in front.

Proof: by the moves. A descriptor is added to those in flight where it is written, and the
oldest one leaves where `HandleTxIntr` takes it back. -/
theorem moves_flying {steps : List (State × Action)} {state next : State} {action : Action}
    (flying : Flying steps state) (settled : Settled state) (moves : Moves state action next) :
    Flying (steps ++ [(state, action)]) next := by
  obtain ⟨sent, before⟩ := flying
  obtain ⟨accounted, tested⟩ := settled
  simp only [Flying, Runs.observed_snoc, before]
  cases moves with
  | refused | coalesced | whole | enq | linked | unlinked | signal | take | leave | drain | drained
    | drainUnlink | drainEmpty | drainClear | drainFree | handleTxReqs | handleTxIntr | link
    | setEvents | waitEvents => exact ⟨sent, List.append_nil _⟩
  | peek here | nothing here | fits here | dropped here | full here | unlink here | unlinkEmpty here
    | clear here | free here | reaped here =>
    exact ⟨sent, by simp only [written, here, List.append_nil]⟩
  | publish here | unpublish here =>
    refine ⟨sent, ?_⟩
    simp only [written, here, List.append_nil]
    rfl
  | complete index ctrlStat =>
    exact ⟨sent, by simp only [written, List.append_nil, Adapter.complete_frames]⟩
  | copy here =>
    refine ⟨sent, ?_⟩
    simp only [State.copied, here] at accounted
    simp only [State.Tested, here] at tested
    simp only [written, here, List.append_nil]
    congr 1
    exact (List.map_congr_left fun bd member =>
      accounted.copy_keeps_frames _ _ tested.2 member).symm
  | @bd data length bdDataPtr dmaOk here =>
    refine ⟨sent, ?_⟩
    simp only [State.copied, here] at accounted
    simp only [State.Tested, here] at tested
    have slot : (state.adapter.queueBd length bdDataPtr).bd
        (state.adapter.drv.txBDIndex % smapBdMaxEntry) =
        ⟨smapBdTxReady ||| smapBdTxGenfcs ||| smapBdTxGenpad, length % 65536, bdDataPtr⟩ := by
      simp only [Adapter.queueBd, Function.update_self]
    simp only [written, here, slot, accounted.queueBd_inFlight tested, List.map_append,
      List.append_assoc]
    rfl
  | @reap adapter dmaOk here done =>
    obtain ⟨_, _, _, fifo, _⟩ := Adapter.reap_cases done
    have first := Adapter.reap_inFlight done
    have same : adapter.frameOf = state.adapter.frameOf := by
      funext bd
      simp only [Adapter.frameOf, fifo]
    simp only [written, here, List.append_nil, first, List.map_cons, same]
    exact ⟨sent ++ [state.adapter.frameOf _], by rw [List.append_assoc]; rfl⟩

/-- The order kept along a run: accepted frames are written frames and waiting
frames. -/
def State.InOrder (state : State) (pbufs : List PbufPtr) (steps : List (State × Action)) : Prop :=
  Runs.observed accepted steps = Runs.observed written steps ++ state.frames (state.unsent pbufs)

/-- The oldest pbuf is the one `HandleTxReqs` looked at. -/
theorem Peeking.first {state : State} {pbufs : List PbufPtr} {data : PbufPtr}
    (peeking : Peeking state) (queued : state.queue.Queued pbufs)
    (peeked : state.handler.peeked = some data) : ∃ rest, pbufs = data :: rest := by
  have oldest := peeking.oldest data peeked
  rw [TxQueue.Queued, oldest] at queued
  obtain ⟨rest, split, _⟩ := Linked.chain_some queued
  exact ⟨rest, split⟩

/-- What is unsent of a queue is in the queue. -/
theorem unsent_subset (state : State) (pbufs : List PbufPtr) : state.unsent pbufs ⊆ pbufs := by
  cases here : state.handler with
  | unpublish | deq =>
    simp only [State.unsent, here]
    exact (List.tail_sublist pbufs).subset
  | _ =>
    simp only [State.unsent, here]
    exact List.Subset.refl pbufs

/-- Queueing a pbuf appends it to what is unsent: in an iteration past its
descriptor the queue is not empty. -/
theorem unsent_append {state : State} {pbufs : List PbufPtr} (peeking : Peeking state)
    (queued : state.queue.Queued pbufs) (tx : PbufPtr) :
    state.unsent (pbufs ++ [tx]) = state.unsent pbufs ++ [tx] := by
  cases here : state.handler with
  | unpublish data | deq data =>
    obtain ⟨rest, rfl⟩ := peeking.first queued
      (show state.handler.peeked = some data by rw [here]; rfl)
    simp only [State.unsent, here, List.cons_append, List.tail_cons]
  | _ => simp only [State.unsent, here]

/-- Every step keeps the order. -/
theorem moves_inOrder {pbufs : List PbufPtr} {steps : List (State × Action)} {state next : State}
    {action : Action} (order : state.InOrder pbufs steps) (queued : state.queue.Queued pbufs)
    (settled : Settled state) (peeking : Peeking state) (measured : state.Measured)
    (content : ∀ pbuf ∈ pbufs,
      (next.queue.pbufs pbuf).content = (state.queue.pbufs pbuf).content)
    (moves : Moves state action next) :
    next.InOrder (state.queuedAfter pbufs action) (steps ++ [(state, action)]) := by
  have unsentSame : next.frames (state.unsent pbufs) = state.frames (state.unsent pbufs) :=
    frames_congr fun pbuf member => content pbuf (unsent_subset state pbufs member)
  simp only [State.InOrder, Runs.observed_snoc] at order ⊢
  rw [order, ← unsentSame]
  cases moves with
  | refused | coalesced | whole | complete | link | setEvents | waitEvents =>
    simp only [accepted, written, State.queuedAfter, List.append_nil]
    rfl
  | linked here | unlinked here | signal here | take here | leave here | drain here | drained here
    | drainUnlink here | drainEmpty here | drainClear here | drainFree here =>
    simp only [accepted, written, State.queuedAfter, here, List.append_nil]
    rfl
  | handleTxReqs here | handleTxIntr here | peek here | nothing here | publish here | fits here
    | full here | copy here | unpublish here | unlink here | unlinkEmpty here | clear here
    | free here | reap here | reaped here =>
    simp only [accepted, written, State.queuedAfter, State.unsent, here, List.append_nil]
  | @enq tx here =>
    have grown : State.unsent { state with
        queue := state.queue.enQTxPacket tx, tcpip := .xmit } (pbufs ++ [tx]) =
        state.unsent pbufs ++ [tx] := unsent_append peeking queued tx
    have last : ((state.queue.enQTxPacket tx).pbufs tx).frame = (state.queue.pbufs tx).frame :=
      content_frame (TxQueue.enQTxPacket_content _ _ _)
    simp only [accepted, written, State.queuedAfter, here, grown, List.append_nil, State.frames,
      List.map_append, List.map_cons, List.map_nil, last, List.append_assoc]
  | dropped here => simpa using peeking.someBytes _ _ (Or.inr here)
  | @bd data length bdDataPtr dmaOk here =>
    obtain ⟨rest, rfl⟩ := peeking.first queued
      (show state.handler.peeked = some data by rw [here]; rfl)
    have accounted := settled.accounted
    simp only [State.copied, here] at accounted
    simp only [State.Measured, here] at measured
    simp only [accepted, written, State.queuedAfter, State.unsent, State.frames, here,
      Adapter.queueBd_frame accounted, measured.2, List.map_cons, List.tail_cons, List.append_nil,
      List.append_assoc, List.cons_append, List.nil_append]

/-- The invariant of ordered transmission. -/
structure Ordered (steps : List (State × Action)) (state : State) : Prop where
  settled : Settled state
  held : state.Held
  peeking : Peeking state
  linked : state.Linked
  measured : state.Measured
  flying : Flying steps state
  queue : ∃ pbufs, state.queue.Intact pbufs ∧ state.Waiting pbufs ∧ state.InOrder pbufs steps

/-- Before the first frame there is nothing to order. -/
theorem fresh_ordered {state : State} (fresh : Fresh state) : Ordered [] state where
  settled := fresh_settled fresh
  held := fresh_held fresh
  peeking := fresh_peeking fresh
  linked := by simp [State.Linked, fresh.tcpip]
  measured := by simp [State.Measured, fresh.handler]
  flying := by
    obtain ⟨memory, up, initialised⟩ := fresh.adapter
    exact ⟨[], by simp [initialised, smapInit, Adapter.inFlight]⟩
  queue := by
    refine ⟨[], ⟨fresh.txTail, fresh.txHead⟩, ?_, ?_⟩
    · intro tx waiting
      simp [fresh.tcpip] at waiting
    · simp [State.InOrder, State.unsent, State.frames, fresh.handler]

/-- A step with a proper hand-over that clears no link in the queue keeps the
invariant. -/
theorem moves_ordered {steps : List (State × Action)} {state next : State} {action : Action}
    (ordered : Ordered steps state) (given : HandsOver state action)
    (clears : ClearsNoLink state action) (moves : Moves state action next) :
    Ordered (steps ++ [(state, action)]) next := by
  obtain ⟨settled, held, peeking, linked, measured, flying, pbufs, intact, waiting, order⟩ := ordered
  obtain ⟨members, queued, covered⟩ := held
  obtain rfl : members = pbufs := Linked.chain_unique queued intact.queued
  have content := fun pbuf (member : pbuf ∈ members) =>
    moves_content queued covered given moves member
  have peekedContent : ∀ data, state.handler.peeked = some data →
      (next.queue.pbufs data).content = (state.queue.pbufs data).content := by
    intro data peeked
    obtain ⟨rest, split⟩ := peeking.first queued peeked
    exact content data (by simp [split])
  obtain ⟨intactAfter, waitingAfter⟩ := moves_intact intact covered linked waiting given clears moves
  exact ⟨moves_settled settled moves, moves_held ⟨members, queued, covered⟩ moves,
    moves_peeking peeking (linked.keepsApart action) moves, moves_linked linked given moves,
    moves_measured measured settled peekedContent moves, moves_flying flying settled moves,
    _, intactAfter, waitingAfter,
    moves_inOrder order queued settled peeking measured content moves⟩

/-- The invariant gives the order: the frames accepted are those written and those
waiting. -/
theorem Ordered.transmits {steps : List (State × Action)} {state : State}
    (ordered : Ordered steps state) : Transmits steps state := by
  obtain ⟨pbufs, intact, _, order⟩ := ordered.queue
  exact ⟨⟨pbufs, intact, order⟩, ordered.flying⟩

/-- Clearing the link of a queued pbuf with another one behind it cuts the queue
short of `TxHead`. -/
theorem cleared_not_intact {queue : TxQueue} {pbufs others : List PbufPtr} {toFree : PbufPtr}
    (intact : queue.Intact pbufs) (member : toFree ∈ pbufs) (link : queue.next toFree ≠ none) :
    ¬ (queue.setNext toFree none).Intact others := by
  intro whole
  obtain ⟨before, after, rfl⟩ := List.append_of_mem member
  have cut := Linked.chain_cut intact.queued
  have remaining : Linked.Chain (Function.update queue.next toFree none) queue.txTail others := by
    have queued := whole.queued
    rwa [TxQueue.Queued, TxQueue.setNext_next] at queued
  obtain rfl := Linked.chain_unique remaining cut
  have last : queue.txHead = some toFree := by simpa using whole.ends
  exact link (intact.headStops toFree last)

/-- Ordered exactly-once transmission holds throughout a run exactly when no step
of it clears the link of a pbuf that is back in the queue with another behind
it.

Proof: both directions come from the invariant `Ordered`. A step that clears no link keeps
it, and it gives ordered transmission; a step that clears the link of a pbuf with another
behind it leaves a queue whose chain ends early, which no order can be read from. -/
theorem transmits_iff {steps : List (State × Action)} {state : State} (run : TxRun steps state)
    (given : Runs.Meets HandsOver steps) :
    Runs.Throughout State.step Fresh Transmits steps ↔ Runs.Meets ClearsNoLink steps := by
  refine Runs.throughout_iff HandsOver Ordered (fun _ => fresh_ordered) ?_ ?_ ?_ run given
  · intro earlier before action next ordered isGiven clears taken
    exact moves_ordered ordered isGiven clears (step_moves taken)
  · intro earlier before ordered
    exact ordered.transmits
  · intro earlier before action next ordered isGiven refused taken holds
    simp only [ClearsNoLink, not_forall] at refused
    obtain ⟨dmaOk, toFree, rfl, here, pbufs, queued, member, link⟩ := refused
    obtain ⟨whole, intact, _⟩ := ordered.queue
    obtain rfl : whole = pbufs := Linked.chain_unique intact.queued queued
    obtain ⟨others, after, _⟩ := holds.order
    simp only [State.step, State.stepHandler, here, Option.some.injEq] at taken
    subst next
    exact cleared_not_intact intact member link after

/-- A hand-over that is proper by inspection: the queue is empty, or the driver
has no reference on the pbuf. -/
def properHandOver (state : State) : Action → Bool
  | .link up => up
  | .output call => state.adapter.drv.linkStatus &&
      (state.queue.txTail.isNone || (state.queue.pbufs call.pOutput).refs == 0)
  | _ => true

/-- A hand-over that was found proper is one: what the driver has no reference on is not
in its queue. -/
theorem handsOver_of_proper {state : State} {action : Action} (held : state.Held)
    (proper : properHandOver state action = true) : HandsOver state action := by
  obtain ⟨members, chain, covered⟩ := held
  constructor
  · rintro rfl
    simp [properHandOver] at proper
  · rintro call rfl
    simp only [properHandOver, Bool.and_eq_true] at proper
    exact proper.1
  · rintro call rfl pbufs queued member
    obtain rfl : members = pbufs := Linked.chain_unique chain queued
    simp only [properHandOver, Bool.and_eq_true, Bool.or_eq_true, Option.isNone_iff_eq_none,
      beq_iff_eq] at proper
    rcases proper.2 with empty | unused
    · rw [TxQueue.Queued, empty] at queued
      simp [Linked.chain_none queued] at member
    · exact (covered.unused unused).1 member

/-- The pbuf whose link is about to be cleared has none. -/
def clearsUnlinked (state : State) : Bool :=
  match state.handler with
  | .clear toFree => (state.queue.next toFree).isNone
  | _ => true

/-- Clearing a link that is not there is no harm. -/
theorem clearsNoLink_of_unlinked {state : State} (action : Action)
    (unlinked : clearsUnlinked state = true) : ClearsNoLink state action := by
  intro dmaOk toFree _ here pbufs _ _
  simpa [clearsUnlinked, here] using unlinked

/-- A frame handed over, sent and removed; throughout, transmission is ordered. -/
theorem transmits_one_frame : ∃ steps state, TxRun steps state ∧ Runs.Meets HandsOver steps ∧
    Runs.observed written steps = [[1, 1, 1]] ∧
    Runs.Throughout State.step Fresh Transmits steps := by
  obtain ⟨steps, state, run, sent, checked⟩ := Runs.run_of_performed State.step
    (fun steps _ => Runs.observed written steps = [[1, 1, 1]] ∧ ∀ entry ∈ steps,
      properHandOver entry.1 entry.2 = true ∧ clearsUnlinked entry.1 = true)
    freshDriver_fresh (.link true :: (outputActions (plainCall 0 3 1) ++ txReqsActions 9))
    (by decide)
  have given : Runs.Meets HandsOver steps := by
    intro entry member
    obtain ⟨early, reached⟩ := Runs.run_entry run member
    exact handsOver_of_proper (run_held reached) (checked entry member).1
  exact ⟨steps, state, run, given, sent, (transmits_iff run given).mpr fun entry member =>
    clearsNoLink_of_unlinked entry.2 (checked entry member).2⟩

/-- A frame is sent and its pbuf unlinked; before the link is cleared, the pbuf
is handed over again and another one behind it. Clearing the link then drops the
second one from the queue. -/
theorem transmission_cut : ∃ steps state, TxRun steps state ∧ Runs.Meets HandsOver steps ∧
    ¬ Transmits steps state := by
  obtain ⟨steps, state, run, ⟨tail, head, link⟩, proper⟩ := Runs.run_of_performed State.step
    (fun steps state => (state.queue.txTail = some 0 ∧ state.queue.txHead = some 1 ∧
      state.queue.next 0 = none) ∧ ∀ entry ∈ steps, properHandOver entry.1 entry.2 = true)
    freshDriver_fresh (.link true :: (outputActions (plainCall 0 3 1) ++ txReqsActions 7 ++
      outputActions (plainCall 0 3 2) ++ outputActions (plainCall 1 3 3) ++ [.handler true]))
    (by decide)
  have given : Runs.Meets HandsOver steps := by
    intro entry member
    obtain ⟨early, reached⟩ := Runs.run_entry run member
    exact handsOver_of_proper (run_held reached) (proper entry member)
  refine ⟨steps, state, run, given, ?_⟩
  intro transmits
  obtain ⟨pbufs, intact, _⟩ := transmits.order
  have chain : Linked.Chain state.queue.next (some 0) pbufs := tail ▸ intact.queued
  obtain ⟨rest, rfl, behind⟩ := Linked.chain_some chain
  rw [link] at behind
  obtain rfl := Linked.chain_none behind
  simpa [head] using intact.ends

end Ps2Eth.Smap
