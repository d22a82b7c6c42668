import Ps2Eth.Smap.LinkDown

/-!
# Frames handed over again while they wait

A network stack that retransmits a segment hands the same pbuf over once more.
The queue links frames through `pbuf->next`, so it has room for one place of
each pbuf, and `EnQTxPacket` does not look whether the pbuf is in it.

The calls are taken one after the other here, each as a whole. With the link up
they change nothing but the queue.
-/

namespace Ps2Eth.Smap

/-- `SMapTxPacketDeQ` as a whole: the pbuf it gives back and the queue after it. -/
def TxQueue.sMapTxPacketDeQ (queue : TxQueue) : Option PbufPtr × TxQueue :=
  match queue.unlinkTail with
  | (some toFree, unlinked) => (some toFree, (unlinked.setNext toFree none).pbufFree toFree)
  | (none, unlinked) => (none, unlinked)

/-- The two calls that change the queue. -/
inductive QueueCall where
  /-- `SMapLowLevelOutput` with the link up. -/
  | output (call : OutputCall)
  /-- `SMapTxPacketDeQ` -/
  | deQ

/-- One call on the queue. A frame spread over several pbufs is not handed over. -/
def stepQueue (queue : TxQueue) : QueueCall → Option TxQueue
  | .output call =>
      if call.len < call.totLen then none
      else match sMapLowLevelOutput queue call with
        | some (taken, some tx) => some (taken.enQTxPacket tx)
        | _ => none
  | .deQ => some queue.sMapTxPacketDeQ.2

/-- The driver starts with an empty queue and without references. -/
structure EmptyQueue (queue : TxQueue) : Prop where
  txHead : queue.txHead = none
  txTail : queue.txTail = none
  refs : ∀ pbuf, (queue.pbufs pbuf).refs = 0

/-- The pbuf a call hands over. -/
def handedOver (_ : TxQueue) : QueueCall → List PbufPtr
  | .output call => [call.pOutput]
  | .deQ => []

/-- The pbuf a call dequeues and gives back. -/
def dequeued (queue : TxQueue) : QueueCall → List PbufPtr
  | .output _ => []
  | .deQ => queue.sMapTxPacketDeQ.1.toList

/-- `SMapTxPacketDeQ` called until the queue is empty, with the pbufs it gave back. -/
inductive Drains : TxQueue → List PbufPtr → TxQueue → Prop where
  | empty {queue : TxQueue} (nothing : queue.txTail = none) : Drains queue [] queue
  | turn {queue next final : TxQueue} {toFree : PbufPtr} {rest : List PbufPtr}
      (taken : queue.sMapTxPacketDeQ = (some toFree, next)) (later : Drains next rest final) :
      Drains queue (toFree :: rest) final

/-- The queue has lost nothing: the pbufs handed over and not yet dequeued are
reached from `TxTail`, the last of them is `TxHead`, and draining the queue now
makes each hand-over dequeued exactly once and gives every reference back. -/
structure Survives (steps : List (TxQueue × QueueCall)) (queue : TxQueue) : Prop where
  reachable : ∀ pbuf, (Runs.observed dequeued steps).count pbuf <
      (Runs.observed handedOver steps).count pbuf → ∃ pbufs, queue.Queued pbufs ∧ pbuf ∈ pbufs
  ends : ∃ pbufs, queue.Intact pbufs
  drained : ∃ taken final, Drains queue taken final ∧ ∀ pbuf,
    (Runs.observed handedOver steps).count pbuf =
      (Runs.observed dequeued steps ++ taken).count pbuf ∧
    (final.pbufs pbuf).refs = 0

/-- The pbuf handed over is not waiting in the queue. -/
def NotQueued (queue : TxQueue) (action : QueueCall) : Prop :=
  ∀ call, action = .output call → ∀ pbufs, queue.Queued pbufs → call.pOutput ∉ pbufs

/-- The queue as it should be: what was handed over is what was dequeued and then
what waits, each waiting pbuf with one reference. -/
structure Whole (steps : List (TxQueue × QueueCall)) (queue : TxQueue) (pbufs : List PbufPtr) :
    Prop where
  intact : queue.Intact pbufs
  order : Runs.observed handedOver steps = Runs.observed dequeued steps ++ pbufs
  refs : ∀ pbuf, (queue.pbufs pbuf).refs = listed pbufs pbuf

/-- A call of `SMapLowLevelOutput` for a whole frame fills the pbuf, takes a reference and
queues it. -/
theorem stepQueue_output {queue next : TxQueue} {call : OutputCall}
    (taken : stepQueue queue (.output call) = some next) :
    next = ((queue.fill call).pbufRef call.pOutput).enQTxPacket call.pOutput := by
  by_cases split : call.len < call.totLen
  · simp [stepQueue, split] at taken
  · simp only [stepQueue, sMapLowLevelOutput, split, ↓reduceIte, Option.some.injEq] at taken
    exact taken.symm

/-- `SMapTxPacketDeQ` takes off the oldest pbuf. -/
theorem sMapTxPacketDeQ_some {queue : TxQueue} {toFree : PbufPtr}
    (oldest : queue.txTail = some toFree) :
    queue.sMapTxPacketDeQ = (some toFree, queue.drop toFree) := by
  rw [TxQueue.sMapTxPacketDeQ, unlinkTail_some oldest]
  rfl

/-- From an empty queue it takes nothing. -/
theorem sMapTxPacketDeQ_none {queue : TxQueue} (empty : queue.txTail = none) :
    queue.sMapTxPacketDeQ = (none, queue) := by
  rw [TxQueue.sMapTxPacketDeQ, TxQueue.unlinkTail_empty empty]

/-- A proper hand-over appends its pbuf. -/
theorem whole_output {steps : List (TxQueue × QueueCall)} {queue next : TxQueue}
    {pbufs : List PbufPtr} {call : OutputCall} (whole : Whole steps queue pbufs)
    (fresh : call.pOutput ∉ pbufs) (taken : stepQueue queue (.output call) = some next) :
    Whole (steps ++ [(queue, .output call)]) next (pbufs ++ [call.pOutput]) := by
  obtain rfl := stepQueue_output taken
  constructor
  · exact TxQueue.enQTxPacket_intact (intact_congr whole.intact (by simp) rfl rfl) fresh
  · simp [handedOver, dequeued, whole.order]
  · intro pbuf
    rw [TxQueue.enQTxPacket_refs, TxQueue.pbufRef_refs, TxQueue.fill_refs, whole.refs]
    by_cases same : pbuf = call.pOutput
    · subst same
      simp [listed, fresh]
    · simp [listed, same]

/-- Dequeueing takes the oldest pbuf with its reference. -/
theorem drop_whole {queue : TxQueue} {toFree : PbufPtr} {rest : List PbufPtr}
    (intact : queue.Intact (toFree :: rest))
    (refs : ∀ pbuf, (queue.pbufs pbuf).refs = listed (toFree :: rest) pbuf) :
    (queue.drop toFree).Intact rest ∧
      ∀ pbuf, ((queue.drop toFree).pbufs pbuf).refs = listed rest pbuf := by
  obtain ⟨shorter, _, _, whole⟩ := drop_queued intact.queued
  have unique := List.nodup_cons.mp (Linked.chain_nodup intact.queued)
  refine ⟨(whole intact).2, ?_⟩
  intro pbuf
  rw [TxQueue.drop_refs, refs, listed_cons toFree rest pbuf unique.1, Nat.add_sub_cancel_left]

/-- `SMapTxPacketDeQ` keeps an intact queue intact: its clearing of the link does no harm
there. -/
theorem whole_deQ {steps : List (TxQueue × QueueCall)} {queue : TxQueue} {pbufs : List PbufPtr}
    (whole : Whole steps queue pbufs) :
    Whole (steps ++ [(queue, .deQ)]) queue.sMapTxPacketDeQ.2 pbufs.tail := by
  cases pbufs with
  | nil =>
    have nothing := sMapTxPacketDeQ_none (show queue.txTail = none from whole.intact.queued)
    refine ⟨?_, ?_, ?_⟩
    · rw [nothing]
      exact whole.intact
    · simpa [handedOver, dequeued, nothing] using whole.order
    · rw [nothing]
      exact whole.refs
  | cons toFree rest =>
    have oldest := sMapTxPacketDeQ_some whole.intact.queued.1
    obtain ⟨intact, refs⟩ := drop_whole whole.intact whole.refs
    refine ⟨?_, ?_, ?_⟩
    · rw [oldest]
      exact intact
    · simp [handedOver, dequeued, oldest, whole.order]
    · rw [oldest]
      exact refs

/-- A whole queue is drained of exactly the pbufs waiting in it. -/
theorem whole_drains {queue : TxQueue} {pbufs : List PbufPtr} (intact : queue.Intact pbufs)
    (refs : ∀ pbuf, (queue.pbufs pbuf).refs = listed pbufs pbuf) :
    ∃ final, Drains queue pbufs final ∧ ∀ pbuf, (final.pbufs pbuf).refs = 0 := by
  induction pbufs generalizing queue with
  | nil => exact ⟨queue, .empty intact.queued, fun pbuf => by simp [refs, listed]⟩
  | cons toFree rest inductionHypothesis =>
    obtain ⟨intactAfter, refsAfter⟩ := drop_whole intact refs
    obtain ⟨final, later, given⟩ := inductionHypothesis intactAfter refsAfter
    exact ⟨final, .turn (sMapTxPacketDeQ_some intact.queued.1) later, given⟩

/-- Draining any finite queue dequeues each pbuf it can reach at most once. -/
theorem drains_queued {queue final : TxQueue} {taken pbufs : List PbufPtr}
    (drains : Drains queue taken final) (queued : queue.Queued pbufs) : taken.Sublist pbufs := by
  induction drains generalizing pbufs with
  | empty => exact List.nil_sublist pbufs
  | @turn queue next final toFree rest taken later inductionHypothesis =>
    cases oldest : queue.txTail with
    | none => simp [sMapTxPacketDeQ_none oldest] at taken
    | some tail =>
      rw [sMapTxPacketDeQ_some oldest] at taken
      obtain ⟨same, rfl⟩ := Prod.mk.inj taken
      obtain rfl := Option.some.inj same
      have chain : Linked.Chain queue.next (some tail) pbufs := oldest ▸ queued
      obtain ⟨behind, rfl, _⟩ := Linked.chain_some chain
      obtain ⟨shorter, after, early, _⟩ := drop_queued queued
      exact ((inductionHypothesis after).trans early.sublist).cons_cons tail

/-- A queue that is whole keeps all that was handed over and not yet taken off. -/
theorem whole_survives {steps : List (TxQueue × QueueCall)} {queue : TxQueue} {pbufs : List PbufPtr}
    (whole : Whole steps queue pbufs) : Survives steps queue := by
  refine ⟨?_, ⟨pbufs, whole.intact⟩, ?_⟩
  · intro pbuf waiting
    refine ⟨pbufs, whole.intact.queued, ?_⟩
    rw [whole.order, List.count_append] at waiting
    exact List.count_pos_iff.mp (by omega)
  · obtain ⟨final, drains, given⟩ := whole_drains whole.intact whole.refs
    exact ⟨pbufs, final, drains, fun pbuf => ⟨by rw [whole.order], given pbuf⟩⟩

/-- A pbuf handed over while it waits is dequeued once for two hand-overs. -/
theorem again_lost {steps : List (TxQueue × QueueCall)} {queue next : TxQueue}
    {pbufs : List PbufPtr} {call : OutputCall} (whole : Whole steps queue pbufs)
    (again : call.pOutput ∈ pbufs) (taken : stepQueue queue (.output call) = some next) :
    ¬ Survives (steps ++ [(queue, .output call)]) next := by
  rintro ⟨-, -, all, final, drains, counted⟩
  obtain rfl := stepQueue_output taken
  have queued : ((queue.fill call).pbufRef call.pOutput).Queued pbufs := by
    rw [TxQueue.pbufRef_queued, TxQueue.fill_queued]
    exact whole.intact.queued
  obtain ⟨longer, after, _⟩ := TxQueue.enQTxPacket_queued call.pOutput queued
  have once : all.count call.pOutput ≤ 1 :=
    List.nodup_iff_count_le_one.mp ((Linked.chain_nodup after).sublist (drains_queued drains after)) _
  have waiting : 0 < pbufs.count call.pOutput := List.count_pos_iff.mpr again
  have twice := (counted call.pOutput).1
  simp only [Runs.observed_snoc, handedOver, dequeued, whole.order, List.append_nil,
    List.count_append, List.count_singleton_self] at twice
  omega

/-- For every sequence of calls, the queue survives after each of them exactly
when no pbuf is handed over while it waits.

Proof: the invariant is that what was handed over is what was dequeued and then what
waits. A call with a pbuf that waits writes the link of a pbuf inside the chain, and the
pbufs behind it are no longer reached. -/
theorem survives_iff {steps : List (TxQueue × QueueCall)} {queue : TxQueue}
    (run : Runs.Run stepQueue EmptyQueue steps queue) :
    Runs.Throughout stepQueue EmptyQueue Survives steps ↔ Runs.Meets NotQueued steps := by
  refine Runs.throughout_iff (fun _ _ => True) (fun steps queue => ∃ pbufs, Whole steps queue pbufs)
    ?_ ?_ ?_ ?_ run (fun _ _ => trivial)
  · intro start empty
    exact ⟨[], ⟨empty.txTail, empty.txHead⟩, rfl, fun pbuf => by simp [empty.refs, listed]⟩
  · rintro steps queue action next ⟨pbufs, whole⟩ - notQueued taken
    cases action with
    | output call =>
      exact ⟨_, whole_output whole (notQueued call rfl pbufs whole.intact.queued) taken⟩
    | deQ =>
      obtain rfl := Option.some.inj taken
      exact ⟨_, whole_deQ whole⟩
  · rintro steps queue ⟨pbufs, whole⟩
    exact whole_survives whole
  · rintro steps queue action next ⟨pbufs, whole⟩ - again taken
    cases action with
    | output call =>
      apply again_lost whole _ taken
      by_contra fresh
      apply again
      rintro call' same others queued
      cases same
      exact Linked.chain_unique queued whole.intact.queued ▸ fresh
    | deQ =>
      exact absurd (fun _ same => by cases same) again

/-- A pbuf handed over again after it was taken off does no harm. -/
theorem survives_dequeued_between : ∃ steps queue, Runs.Run stepQueue EmptyQueue steps queue ∧
    Runs.observed handedOver steps = [0, 1, 0] ∧
    Runs.Throughout stepQueue EmptyQueue Survives steps := by
  obtain ⟨steps, queue, run, handed, fresh⟩ := Runs.run_of_performed stepQueue
    (fun steps _ => Runs.observed handedOver steps = [0, 1, 0] ∧
      ∀ entry ∈ steps, ∀ tx ∈ handedOver entry.1 entry.2, ∀ tail ∈ entry.1.txTail,
        entry.1.next tail = none ∧ tx ≠ tail)
    (⟨rfl, rfl, fun _ => rfl⟩ : EmptyQueue freshDriver.queue)
    [.output (plainCall 0 3 1), .output (plainCall 1 3 2), .deQ, .output (plainCall 0 3 1)]
    (by decide)
  refine ⟨steps, queue, run, handed, (survives_iff run).mpr ?_⟩
  rintro ⟨before, action⟩ member call rfl pbufs queued again
  cases pbufs with
  | nil => simp at again
  | cons tail rest =>
    obtain ⟨alone, other⟩ := fresh _ member call.pOutput List.mem_cons_self tail queued.1
    have behind : Linked.Chain before.next (before.next tail) rest := queued.2
    rw [alone] at behind
    obtain rfl := Linked.chain_none behind
    exact other (List.mem_singleton.mp again)

/-- Two frames wait and the first is handed over again: the second is in the
queue no more. -/
theorem retransmission_loses : ∃ steps queue, Runs.Run stepQueue EmptyQueue steps queue ∧
    Runs.observed handedOver steps = [0, 1, 0] ∧ Runs.observed dequeued steps = [] ∧
    (∀ pbufs, queue.Queued pbufs → 1 ∉ pbufs) ∧ ¬ Survives steps queue := by
  obtain ⟨steps, queue, run, ⟨handed, none⟩, tail, link⟩ := Runs.run_of_performed stepQueue
    (fun steps queue => (Runs.observed handedOver steps = [0, 1, 0] ∧
      Runs.observed dequeued steps = []) ∧ queue.txTail = some 0 ∧ queue.next 0 = none)
    (⟨rfl, rfl, fun _ => rfl⟩ : EmptyQueue freshDriver.queue)
    [.output (plainCall 0 3 1), .output (plainCall 1 3 2), .output (plainCall 0 3 1)]
    (by decide)
  have lost : ∀ pbufs, queue.Queued pbufs → 1 ∉ pbufs := by
    intro pbufs queued
    have chain : Linked.Chain queue.next (some 0) pbufs := tail ▸ queued
    obtain ⟨rest, rfl, behind⟩ := Linked.chain_some chain
    rw [link] at behind
    obtain rfl := Linked.chain_none behind
    simp
  refine ⟨steps, queue, run, handed, none, lost, ?_⟩
  intro survives
  obtain ⟨pbufs, queued, member⟩ := survives.reachable 1 (by rw [handed, none]; decide)
  exact lost pbufs queued member

/-- A call taken as a whole is the call of the two-thread machine that no other
step interrupts. -/
theorem output_uninterrupted {state : State} {call : OutputCall} (idle : state.tcpip = .idle)
    (up : state.adapter.drv.linkStatus = true) (single : ¬ call.len < call.totLen) :
    (Runs.replay State.step state (outputActions call)).map (fun result => result.2.queue) =
      stepQueue state.queue (.output call) := by
  simp [Runs.replay, outputActions, stepQueue, State.step, State.stepOutput, State.stepTcpip,
    sMapLowLevelOutput, idle, single, up]

/-- The three steps that `HandleTxReqs` makes of `SMapTxPacketDeQ` are the one call, if
nothing comes between them. -/
theorem deQ_uninterrupted {state : State} {data toFree : PbufPtr} (here : state.handler = .deq data)
    (oldest : state.queue.txTail = some toFree) (dmaOk : Bool) :
    (Runs.replay State.step state (List.replicate 3 (.handler dmaOk))).map
      (fun result => result.2.queue) = stepQueue state.queue .deQ := by
  have unlinked : state.step (.handler dmaOk) =
      some { state with queue := state.queue.unlinkTail.2, handler := .clear toFree } := by
    simp only [State.step, State.stepHandler, here]
    rw [unlinkTail_some oldest]
  rw [stepQueue, sMapTxPacketDeQ_some oldest]
  simp only [List.replicate, Runs.replay, unlinked, Option.bind_some]
  rfl

end Ps2Eth.Smap
