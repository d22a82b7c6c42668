import Ps2Eth.Smap.References
import Ps2Eth.Smap.TxOrder

/-!
# A call of `SMapLowLevelOutput` without a link

Without a link `SMAPXmit` clears the queue, but only when `packetToSend` says
that a frame is stuck. The call is followed here with no other thread running,
from any state of the machine, and its effect is compared with what the clearing
is there for: nothing stays queued and no reference stays taken.
-/

namespace Ps2Eth.Smap

/-- The TCP/IP thread runs alone until its call returns. -/
inductive Finishes : State → State → Prop where
  | returned {state : State} (idle : state.tcpip = .idle) : Finishes state state
  | goesOn {state next final : State} (taken : state.stepTcpip = some next)
      (rest : Finishes next final) : Finishes state final

/-- The call leaves nothing queued and no reference on what was queued. -/
structure Released (state : State) (tx : PbufPtr) (final : State) : Prop where
  empty : final.queue.txTail = none
  given : ∀ pbufs, state.queue.Queued pbufs → ∀ pbuf ∈ tx :: pbufs,
    (final.queue.pbufs pbuf).refs = 0

/-- What has to be so before the call: a frame is stuck, nothing is lost from the
queue, every queued frame has bytes and one reference, and the driver has no
reference on the pbuf to be queued. -/
structure Stuck (state : State) (tx : PbufPtr) : Prop where
  sending : state.adapter.drv.packetToSend ≠ none
  whole : ∀ pbufs, state.queue.Queued pbufs → pbufs = [] ∨ state.queue.Intact pbufs
  someBytes : ∀ pbufs, state.queue.Queued pbufs → ∀ pbuf ∈ pbufs, 0 < (state.queue.pbufs pbuf).len
  single : ∀ pbufs, state.queue.Queued pbufs → ∀ pbuf ∈ pbufs, (state.queue.pbufs pbuf).refs = 1
  unheld : (state.queue.pbufs tx).refs = 0

/-- The newest pbuf never has a link. -/
theorem moves_headStops {state next : State} {action : Action} (stops : state.queue.HeadStops)
    (moves : Moves state action next) : next.queue.HeadStops := by
  cases moves with
  | linked | unlinked | signal | take | leave | drain | drained | drainEmpty | handleTxReqs
    | handleTxIntr | peek | nothing | publish | fits | dropped | full | copy | bd | unpublish
    | unlinkEmpty | reap | reaped | complete | link | setEvents | waitEvents => exact stops
  | drainUnlink | unlink => exact TxQueue.unlinkTail_headStops stops
  | drainClear | clear => exact TxQueue.setNext_none_headStops _ stops
  | enq => exact TxQueue.enQTxPacket_headStops _ _
  | refused | whole | drainFree | free =>
    intro head here
    simpa using stops head here
  | @coalesced call copy =>
    intro head here
    by_cases same : head = copy
    · simp [TxQueue.next, TxQueue.store, same, OutputCall.copied]
    · have old := stops head here
      simp only [TxQueue.next] at old ⊢
      simp only [TxQueue.store, Function.update_of_ne same]
      exact (congrFun (show ((state.queue.pbufRef call.pOutput).pbufFree call.pOutput).next =
        state.queue.next by simp) head).trans old

/-- In every state reached nothing is linked behind the newest pbuf. -/
theorem run_headStops {steps : List (State × Action)} {state : State} (run : TxRun steps state) :
    state.queue.HeadStops := by
  refine Runs.state_invariant (fun state => state.queue.HeadStops) ?_ ?_ run
  · intro fresh initial head here
    simp [initial.txHead] at here
  · intro before action next stops taken
    exact moves_headStops stops (step_moves taken)

/-- What an accepted call does before it queues its pbuf: one reference more on
that pbuf, and no change to any other. -/
structure TakenOver (state started : State) (tx : PbufPtr) : Prop where
  adapter : started.adapter = state.adapter
  tcpip : started.tcpip = .enq tx
  txHead : started.queue.txHead = state.queue.txHead
  txTail : started.queue.txTail = state.queue.txTail
  links : ∀ pbuf, pbuf ≠ tx → started.queue.next pbuf = state.queue.next pbuf
  refs : ∀ pbuf, (started.queue.pbufs pbuf).refs =
    (state.queue.pbufs pbuf).refs + listed [tx] pbuf
  content : ∀ pbuf, pbuf ≠ tx →
    (started.queue.pbufs pbuf).content = (state.queue.pbufs pbuf).content

/-- A call that is accepted has taken a reference on the pbuf that it queues. -/
theorem output_takenOver {state started : State} {call : OutputCall} {tx : PbufPtr}
    (taken : state.step (.output call) = some started) (accepted : started.tcpip = .enq tx) :
    TakenOver state started tx := by
  cases step_moves taken with
  | refused here => simp [here] at accepted
  | whole here =>
    cases accepted
    refine ⟨rfl, rfl, rfl, rfl, ?_, ?_, ?_⟩
    · intro pbuf _
      simp
    · intro pbuf
      simp
    · intro pbuf other
      rw [TxQueue.pbufRef_content]
      exact TxQueue.store_content fun same => absurd same other
  | coalesced here split given other unused =>
    cases accepted
    refine ⟨rfl, rfl, rfl, rfl, ?_, ?_, ?_⟩
    · intro pbuf apart
      have same : ((state.queue.pbufRef call.pOutput).pbufFree call.pOutput).next pbuf =
        state.queue.next pbuf := by simp
      rw [← same]
      simp only [TxQueue.next, TxQueue.store, Function.update_of_ne apart]
    · intro pbuf
      simp only [TxQueue.store_refs, TxQueue.pbufFree_refs, TxQueue.pbufRef_refs, OutputCall.copied]
      by_cases same : pbuf = tx
      · subst same
        simp [listed, unused]
      · simp [same, listed]
    · intro pbuf apart
      rw [TxQueue.store_content fun same => absurd same apart, TxQueue.pbufFree_content,
        TxQueue.pbufRef_content]

/-- The drain as seen from its end: it took the first frames of the queue, up to
one without bytes at the latest, and gave back one reference on each. -/
structure Drained (state : State) (pbufs : List PbufPtr) (final : State) : Prop where
  finishes : Finishes state final
  takes : ∃ taken, taken <+: pbufs ∧ (∀ pbuf ∈ taken, 0 < (state.queue.pbufs pbuf).len) ∧
    (∀ pbuf, (final.queue.pbufs pbuf).refs = (state.queue.pbufs pbuf).refs - listed taken pbuf) ∧
    ((∀ pbuf ∈ pbufs, 0 < (state.queue.pbufs pbuf).len) → state.queue.Intact pbufs →
      taken = pbufs ∧ final.queue.Intact [])

/-- The queue after one turn of the loop of `ClearPacketQueue`. -/
def TxQueue.drop (queue : TxQueue) (toFree : PbufPtr) : TxQueue :=
  (queue.unlinkTail.2.setNext toFree none).pbufFree toFree

/-- Taking a pbuf off the queue leaves the content of all. -/
@[simp] theorem TxQueue.drop_content (queue : TxQueue) (toFree tested : PbufPtr) :
    ((queue.drop toFree).pbufs tested).content = (queue.pbufs tested).content := by
  simp [TxQueue.drop]

/-- It gives back one reference on that pbuf. -/
@[simp] theorem TxQueue.drop_refs (queue : TxQueue) (toFree tested : PbufPtr) :
    ((queue.drop toFree).pbufs tested).refs = (queue.pbufs tested).refs - listed [toFree] tested := by
  simp [TxQueue.drop]

/-- One turn of the loop, on a frame with bytes. -/
theorem drain_turn {state final : State} {toFree : PbufPtr} (here : state.tcpip = .drainNext)
    (oldest : state.queue.txTail = some toFree) (some : 0 < (state.queue.pbufs toFree).len)
    (rest : Finishes { state with queue := state.queue.drop toFree, tcpip := .drainNext } final) :
    Finishes state final := by
  have more : 0 < state.queue.sMapTxPacketNext.2 := by
    rw [sMapTxPacketNext_some oldest]
    exact some
  have tested : state.stepTcpip = .some { state with tcpip := .drainUnlink } := by
    simp only [State.stepTcpip, here, more, ↓reduceIte]
  have unlinked : State.stepTcpip { state with tcpip := .drainUnlink } = .some { state with
      queue := state.queue.unlinkTail.2, tcpip := .drainClear toFree } := by
    simp only [State.stepTcpip]
    rw [unlinkTail_some oldest]
  exact .goesOn tested (.goesOn unlinked (.goesOn rfl (.goesOn rfl rest)))

/-- The loop ends at an empty queue or a frame without bytes. -/
theorem drain_stop {state : State} (here : state.tcpip = .drainNext)
    (stop : state.queue.sMapTxPacketNext.2 = 0) : Finishes state { state with tcpip := .idle } := by
  have tested : state.stepTcpip = some { state with tcpip := .idle } := by
    simp only [State.stepTcpip, here, stop, Nat.lt_irrefl, ↓reduceIte]
  exact .goesOn tested (.returned rfl)

/-- A turn removes the oldest frame: a whole queue stays whole, and any queue
stays finite and gains nothing. -/
theorem drop_queued {queue : TxQueue} {toFree : PbufPtr} {rest : List PbufPtr}
    (queued : queue.Queued (toFree :: rest)) :
    ∃ shorter, (queue.drop toFree).Queued shorter ∧ shorter <+: rest ∧
      (queue.Intact (toFree :: rest) → shorter = rest ∧ (queue.drop toFree).Intact rest) := by
  obtain ⟨unlinked, after, early⟩ := TxQueue.unlinkTail_queued queued
  have outside : toFree ∉ rest := (List.nodup_cons.mp (Linked.chain_nodup queued)).1
  have keeps (members : List PbufPtr) (inside : members ⊆ rest) :
      (queue.drop toFree).Queued members ↔ queue.unlinkTail.2.Queued members := by
    rw [TxQueue.drop, TxQueue.pbufFree_queued]
    simp only [TxQueue.Queued, TxQueue.setNext_next, TxQueue.setNext_txTail]
    exact Linked.chain_update_outside none fun member => outside (inside member)
  refine ⟨unlinked, (keeps unlinked early.subset).mpr after, early, ?_⟩
  intro intact
  have whole := TxQueue.unlinkTail_intact intact
  exact ⟨Linked.chain_unique after whole.queued,
    (keeps rest (List.Subset.refl rest)).mpr whole.queued, whole.ends⟩

/-- A loop that stops at once has taken nothing. -/
theorem drained_nothing {pbufs : List PbufPtr} {state : State} (here : state.tcpip = .drainNext)
    (stop : state.queue.sMapTxPacketNext.2 = 0)
    (empty : (∀ pbuf ∈ pbufs, 0 < (state.queue.pbufs pbuf).len) → pbufs = []) :
    Drained state pbufs { state with tcpip := .idle } := by
  refine ⟨drain_stop here stop, [], List.nil_prefix, ?_, ?_, ?_⟩
  · intro pbuf member
    cases member
  · intro pbuf
    simp [listed]
  · intro someBytes intact
    obtain rfl := empty someBytes
    exact ⟨rfl, intact⟩

/-- A loop that takes a turn has taken the oldest frame and what the later turns
take. -/
theorem drained_turn {state final : State} {toFree : PbufPtr} {rest shorter : List PbufPtr}
    (here : state.tcpip = .drainNext) (queued : state.queue.Queued (toFree :: rest))
    (some : 0 < (state.queue.pbufs toFree).len) (early : shorter <+: rest)
    (whole : state.queue.Intact (toFree :: rest) →
      shorter = rest ∧ (state.queue.drop toFree).Intact rest)
    (later : Drained { state with queue := state.queue.drop toFree, tcpip := .drainNext }
      shorter final) : Drained state (toFree :: rest) final := by
  obtain ⟨finishes, taken, within, bytes, refs, all⟩ := later
  have sameLen (pbuf : PbufPtr) : ((state.queue.drop toFree).pbufs pbuf).len =
      (state.queue.pbufs pbuf).len := content_len (TxQueue.drop_content _ _ _)
  have new : toFree ∉ taken := fun member =>
    (List.nodup_cons.mp (Linked.chain_nodup queued)).1 ((within.trans early).subset member)
  refine ⟨drain_turn here queued.1 some finishes, toFree :: taken,
    List.cons_prefix_cons.mpr ⟨rfl, within.trans early⟩, ?_, ?_, ?_⟩
  · intro pbuf member
    rcases List.mem_cons.mp member with first | remaining
    · rw [first]
      exact some
    · rw [← sameLen]
      exact bytes pbuf remaining
  · intro pbuf
    rw [refs pbuf, TxQueue.drop_refs, listed_cons toFree taken pbuf new, Nat.sub_sub]
  · intro someBytes intact
    obtain ⟨rfl, intactAfter⟩ := whole intact
    have bytesAfter : ∀ pbuf ∈ shorter, 0 < ((state.queue.drop toFree).pbufs pbuf).len := by
      intro pbuf member
      rw [sameLen]
      exact someBytes pbuf (List.mem_cons_of_mem _ member)
    obtain ⟨allTaken, emptied⟩ := all bytesAfter intactAfter
    exact ⟨by rw [allTaken], emptied⟩

/-- The loop of `ClearPacketQueue` returns from any finite queue: each turn
shortens it. -/
theorem drain_finishes {pbufs : List PbufPtr} {state : State} (here : state.tcpip = .drainNext)
    (queued : state.queue.Queued pbufs) : ∃ final, Drained state pbufs final := by
  induction size : pbufs.length using Nat.strong_induction_on generalizing pbufs state with
  | _ bound inductionHypothesis =>
    cases pbufs with
    | nil =>
      have empty : state.queue.txTail = none := queued
      exact ⟨_, drained_nothing here (by rw [sMapTxPacketNext_none empty]) fun _ => rfl⟩
    | cons toFree rest =>
      by_cases some : 0 < (state.queue.pbufs toFree).len
      · obtain ⟨shorter, after, early, whole⟩ := drop_queued queued
        have fewer : shorter.length < bound := by
          have lengths := early.length_le
          rw [List.length_cons] at size
          omega
        obtain ⟨final, later⟩ := @inductionHypothesis shorter.length fewer shorter
          { state with queue := state.queue.drop toFree, tcpip := .drainNext } rfl after rfl
        exact ⟨final, drained_turn here queued some early whole later⟩
      · have stop : state.queue.sMapTxPacketNext.2 = 0 := by
          rw [sMapTxPacketNext_some queued.1]
          omega
        exact ⟨_, drained_nothing here stop fun someBytes =>
          absurd (someBytes toFree List.mem_cons_self) some⟩

/-- The queue once the pbuf taken over is queued. -/
theorem TakenOver.queued {state started : State} {tx : PbufPtr} {pbufs : List PbufPtr}
    (takenOver : TakenOver state started tx) (queued : state.queue.Queued pbufs) (fresh : tx ∉ pbufs) :
    started.queue.Queued pbufs := by
  rw [TxQueue.Queued, takenOver.txTail]
  refine (Linked.chain_congr fun pbuf member => ?_).mp queued
  exact (takenOver.links pbuf fun same => fresh (same ▸ member)).symm

/-- The steps of a call without a link up to `ClearPacketQueue`. -/
theorem down_to_clear {started final : State} {tx : PbufPtr} (here : started.tcpip = .enq tx)
    (down : started.adapter.drv.linkStatus = false)
    (rest : Finishes { started with
      queue := started.queue.enQTxPacket tx, tcpip := .clearTake } final) :
    Finishes started final := by
  have queued : started.stepTcpip = some { started with
      queue := started.queue.enQTxPacket tx, tcpip := .xmit } := by
    simp only [State.stepTcpip, here]
  have unlinked : State.stepTcpip { started with
      queue := started.queue.enQTxPacket tx, tcpip := .xmit } = some { started with
      queue := started.queue.enQTxPacket tx, tcpip := .clearTake } := by
    simp only [State.stepTcpip, down, Bool.false_eq_true, ↓reduceIte]
  exact .goesOn queued (.goesOn unlinked rest)

/-- With a packet published the call goes on to the loop of `ClearPacketQueue`. -/
theorem down_to_drain {started final : State} {tx : PbufPtr} (here : started.tcpip = .enq tx)
    (down : started.adapter.drv.linkStatus = false)
    (sending : started.adapter.drv.packetToSend ≠ none)
    (rest : Finishes { started.setPacketToSend none with
      queue := started.queue.enQTxPacket tx, tcpip := .drainNext } final) :
    Finishes started final := by
  obtain ⟨packet, sent⟩ := Option.ne_none_iff_exists'.mp sending
  have takes : State.stepTcpip { started with
      queue := started.queue.enQTxPacket tx, tcpip := .clearTake } =
      some { started.setPacketToSend none with
        queue := started.queue.enQTxPacket tx, tcpip := .drainNext } := by
    simp only [State.stepTcpip, sent]
    rfl
  exact down_to_clear here down (.goesOn takes rest)

/-- With no packet published the call returns with its frame queued. -/
theorem down_quiet {started : State} {tx : PbufPtr} (here : started.tcpip = .enq tx)
    (down : started.adapter.drv.linkStatus = false)
    (quiet : started.adapter.drv.packetToSend = none) :
    Finishes started { started.setPacketToSend none with
      queue := started.queue.enQTxPacket tx, tcpip := .idle } := by
  have leaves : State.stepTcpip { started with
      queue := started.queue.enQTxPacket tx, tcpip := .clearTake } =
      some { started.setPacketToSend none with
        queue := started.queue.enQTxPacket tx, tcpip := .idle } := by
    simp only [State.stepTcpip, quiet]
    rfl
  exact down_to_clear here down (.goesOn leaves (.returned rfl))

/-- A pbuf queued behind others is reached from `TxTail` only if nothing is lost
from the queue. -/
theorem enQTxPacket_reached {queue : TxQueue} {pbufs longer : List PbufPtr} {tx : PbufPtr}
    (queued : queue.Queued pbufs) (stops : queue.HeadStops) (fresh : tx ∉ pbufs)
    (after : (queue.enQTxPacket tx).Queued longer) (reached : tx ∈ longer) :
    pbufs = [] ∨ queue.Intact pbufs := by
  cases pbufs with
  | nil => exact Or.inl rfl
  | cons oldest rest =>
    have tail : queue.txTail = some oldest := queued.1
    by_cases inside : ∃ head ∈ oldest :: rest, queue.txHead = some head
    · obtain ⟨head, member, atHead⟩ := inside
      have last := Linked.last_of_next_none queued member (stops head atHead)
      exact Or.inr ⟨queued, atHead.trans last.symm⟩
    · exfalso
      rw [TxQueue.Queued, TxQueue.enQTxPacket_next, TxQueue.enQTxPacket_txTail, tail,
        Option.getD_some] at after
      have listed : Linked.Chain queue.next (some oldest) (oldest :: rest) := by
        rw [← tail]
        exact queued
      cases atHead : queue.txHead with
      | none =>
        simp only [atHead] at after
        have linked := (Linked.chain_update_outside none fresh).mpr listed
        exact fresh (Linked.chain_unique after linked ▸ reached)
      | some head =>
        simp only [atHead] at after
        have elsewhere : head ∉ oldest :: rest := fun member => inside ⟨head, member, atHead⟩
        have linked := (Linked.chain_update_outside none fresh).mpr
          ((Linked.chain_update_outside (some tx) elsewhere).mpr listed)
        exact fresh (Linked.chain_unique after linked ▸ reached)

/-- The queue with the new pbuf behind the old ones: whole if nothing was lost
from it before. -/
theorem enQTxPacket_whole {queue : TxQueue} {pbufs : List PbufPtr} {tx : PbufPtr}
    (queued : queue.Queued pbufs) (whole : pbufs = [] ∨ queue.Intact pbufs) (fresh : tx ∉ pbufs) :
    (queue.enQTxPacket tx).Intact (pbufs ++ [tx]) := by
  rcases whole with rfl | intact
  · have empty : queue.txTail = none := queued
    refine ⟨?_, by simp⟩
    simp [TxQueue.Queued, TxQueue.enQTxPacket_next, empty]
  · exact TxQueue.enQTxPacket_intact intact fresh

/-- The state in which a call without a link enters the loop of
`ClearPacketQueue`. -/
def State.clearing (started : State) (tx : PbufPtr) : State :=
  { started.setPacketToSend none with
    queue := started.queue.enQTxPacket tx, tcpip := .drainNext }

/-- References there: those before the call and the one on its pbuf. -/
theorem TakenOver.clearing_refs {state started : State} {tx : PbufPtr}
    (takenOver : TakenOver state started tx) (pbuf : PbufPtr) :
    ((started.clearing tx).queue.pbufs pbuf).refs =
      (state.queue.pbufs pbuf).refs + listed [tx] pbuf := by
  rw [State.clearing, TxQueue.enQTxPacket_refs, takenOver.refs]

/-- Lengths there: no pbuf but the call's own has changed. -/
theorem TakenOver.clearing_len {state started : State} {tx pbuf : PbufPtr}
    (takenOver : TakenOver state started tx) (other : pbuf ≠ tx) :
    ((started.clearing tx).queue.pbufs pbuf).len = (state.queue.pbufs pbuf).len := by
  have queuedSame : ((started.queue.enQTxPacket tx).pbufs pbuf).content =
      (state.queue.pbufs pbuf).content :=
    (TxQueue.enQTxPacket_content _ _ _).trans (takenOver.content pbuf other)
  exact content_len queuedSame

/-- From a stuck queue the loop gives everything back.

Proof: the new pbuf is linked behind the old ones, because the old end of the queue is its
last pbuf. The loop then takes them all, as each has bytes, and gives back the one
reference that each has. -/
theorem released_of_stuck {state started final : State} {tx : PbufPtr} {pbufs longer : List PbufPtr}
    (takenOver : TakenOver state started tx) (queued : state.queue.Queued pbufs)
    (covered : state.Covered pbufs) (bytes : 0 < (started.queue.pbufs tx).len)
    (after : (started.clearing tx).queue.Queued longer)
    (drained : Drained (started.clearing tx) longer final) (stuck : Stuck state tx) :
    Released state tx final := by
  have fresh : tx ∉ pbufs := (covered.unused stuck.unheld).1
  have whole : pbufs = [] ∨ started.queue.Intact pbufs := by
    rcases stuck.whole pbufs queued with empty | intact
    · exact Or.inl empty
    · exact Or.inr ⟨takenOver.queued queued fresh, takenOver.txHead.trans intact.ends⟩
  have intact := enQTxPacket_whole (takenOver.queued queued fresh) whole fresh
  obtain rfl : longer = pbufs ++ [tx] := Linked.chain_unique after intact.queued
  obtain ⟨taken, _, _, refs, all⟩ := drained.takes
  have someBytes : ∀ pbuf ∈ pbufs ++ [tx], 0 < ((started.clearing tx).queue.pbufs pbuf).len := by
    intro pbuf member
    rcases List.mem_append.mp member with old | new
    · rw [takenOver.clearing_len fun same => fresh (same ▸ old)]
      exact stuck.someBytes pbufs queued pbuf old
    · obtain rfl := List.mem_singleton.mp new
      have same : ((started.queue.enQTxPacket pbuf).pbufs pbuf).len = (started.queue.pbufs pbuf).len :=
        content_len (TxQueue.enQTxPacket_content _ _ _)
      exact same ▸ bytes
  obtain ⟨rfl, emptied⟩ := all someBytes intact
  refine ⟨emptied.queued, ?_⟩
  intro others other pbuf member
  obtain rfl : others = pbufs := Linked.chain_unique other queued
  rw [refs pbuf, takenOver.clearing_refs]
  rcases List.mem_cons.mp member with rfl | old
  · simp [listed, stuck.unheld]
  · have apart : pbuf ≠ tx := fun same => fresh (same ▸ old)
    simp [listed, old, apart, stuck.single others queued pbuf old]

/-- The loop gives everything back only from a stuck queue.

Proof: the references that the loop gave back are those of the pbufs that it took, one
each. As every pbuf of the queue and the new one lost all its references, each had one,
and was taken; and a pbuf that was taken has bytes. -/
theorem stuck_of_released {state started final : State} {tx : PbufPtr} {pbufs longer : List PbufPtr}
    (takenOver : TakenOver state started tx) (queued : state.queue.Queued pbufs)
    (covered : state.Covered pbufs) (stops : started.queue.HeadStops)
    (sending : state.adapter.drv.packetToSend ≠ none)
    (after : (started.clearing tx).queue.Queued longer)
    (drained : Drained (started.clearing tx) longer final) (released : Released state tx final) :
    Stuck state tx := by
  obtain ⟨taken, within, bytes, refs, _⟩ := drained.takes
  have unique : ∀ others, state.queue.Queued others → others = pbufs :=
    fun others other => Linked.chain_unique other queued
  have gone (pbuf : PbufPtr) (member : pbuf ∈ tx :: pbufs) :
      (state.queue.pbufs pbuf).refs + listed [tx] pbuf ≤ listed taken pbuf := by
    have given := released.given pbufs queued pbuf member
    rw [refs pbuf, takenOver.clearing_refs] at given
    omega
  have atMost (pbuf : PbufPtr) : listed taken pbuf ≤ 1 := by
    simp only [listed]
    split <;> omega
  have atTx := gone tx List.mem_cons_self
  have most := atMost tx
  have one : listed [tx] tx = 1 := by simp [listed]
  have unheld : (state.queue.pbufs tx).refs = 0 := by omega
  have fresh : tx ∉ pbufs := (covered.unused unheld).1
  have reached : tx ∈ longer := by
    apply within.subset
    by_contra missing
    have nothing : listed taken tx = 0 := by simp [listed, missing]
    omega
  have old (pbuf : PbufPtr) (member : pbuf ∈ pbufs) :
      (state.queue.pbufs pbuf).refs = 1 ∧ 0 < (state.queue.pbufs pbuf).len := by
    have apart : pbuf ≠ tx := fun same => fresh (same ▸ member)
    have cover := covered pbuf
    have most := atMost pbuf
    have taking := gone pbuf (List.mem_cons_of_mem _ member)
    have here : listed pbufs pbuf = 1 := by simp [listed, member]
    refine ⟨by omega, ?_⟩
    rw [← takenOver.clearing_len apart]
    apply bytes pbuf
    by_contra missing
    have nothing : listed taken pbuf = 0 := by simp [listed, missing]
    omega
  refine ⟨sending, ?_, ?_, ?_, unheld⟩
  · intro others other
    obtain rfl := unique others other
    rcases enQTxPacket_reached (takenOver.queued queued fresh) stops fresh after reached with empty | intact
    · exact Or.inl empty
    · exact Or.inr ⟨queued, takenOver.txHead.symm.trans intact.ends⟩
  · intro others other pbuf member
    obtain rfl := unique others other
    exact (old pbuf member).2
  · intro others other pbuf member
    obtain rfl := unique others other
    exact (old pbuf member).1

/-- A frame accepted without a link: the call returns, and it leaves nothing
queued and no reference taken exactly when a frame was stuck before it.

Proof: the call is followed to its return, which depends on `packetToSend` alone. Where it
is `NULL` nothing is cleared, and the frame stays queued; otherwise the queue is drained
from its head until the frame that was stuck goes, and the two ways of reading the empty
queue are one lemma each. -/
theorem output_releases_iff {steps : List (State × Action)} {state started : State}
    {call : OutputCall} {tx : PbufPtr} (run : TxRun steps state)
    (down : state.adapter.drv.linkStatus = false)
    (taken : state.step (.output call) = some started) (accepted : started.tcpip = .enq tx)
    (bytes : 0 < (started.queue.pbufs tx).len) :
    ∃ final, Finishes started final ∧ (Released state tx final ↔ Stuck state tx) := by
  have takenOver := output_takenOver taken accepted
  have startedRun := Runs.Run.snoc run taken
  obtain ⟨pbufs, queued, covered⟩ := run_held run
  obtain ⟨before, startedQueued, _⟩ := run_held startedRun
  rw [← takenOver.adapter] at down
  by_cases sending : state.adapter.drv.packetToSend = none
  · refine ⟨_, down_quiet accepted down (by rw [takenOver.adapter, sending]), ?_, ?_⟩
    · intro released
      have empty := released.empty
      simp at empty
    · intro stuck
      exact absurd sending stuck.sending
  · obtain ⟨longer, after, _⟩ := TxQueue.enQTxPacket_queued tx startedQueued
    obtain ⟨final, drained⟩ := @drain_finishes longer (started.clearing tx) rfl after
    refine ⟨final, down_to_drain accepted down (by rwa [takenOver.adapter]) drained.finishes, ?_, ?_⟩
    · exact stuck_of_released takenOver queued covered (run_headStops startedRun) sending after drained
    · exact released_of_stuck takenOver queued covered bytes after drained

/-- A frame that does not fit is stuck when the link is lost; the next call
gives back its pbuf and the call's own. -/
theorem output_releases_two : ∃ steps state started final, TxRun steps state ∧
    state.adapter.drv.linkStatus = false ∧
    state.step (.output (plainCall 1 6 2)) = some started ∧ Finishes started final ∧
    Released state 1 final := by
  obtain ⟨steps, state, run, ⟨down, idle⟩, ⟨tail, head, link⟩, sending, kept, bytes, free⟩ :=
    Runs.run_of_performed State.step
    (fun _ state => (state.adapter.drv.linkStatus = false ∧ state.tcpip = .idle) ∧
      (state.queue.txTail = some 0 ∧ state.queue.txHead = some 0 ∧ state.queue.next 0 = none) ∧
      state.adapter.drv.packetToSend = some 0 ∧ (state.queue.pbufs 0).refs = 1 ∧
      (state.queue.pbufs 0).len = 5000 ∧ (state.queue.pbufs 1).refs = 0)
    freshDriver_fresh (.link true :: (outputActions (plainCall 0 5000 1) ++ txReqsActions 3 ++
      [.link false])) (by decide)
  have intact : state.queue.Intact [0] := ⟨⟨tail, link⟩, head⟩
  have only : ∀ others, state.queue.Queued others → others = [0] :=
    fun others other => Linked.chain_unique other intact.queued
  have stuck : Stuck state 1 := by
    refine ⟨by simp [sending], ?_, ?_, ?_, free⟩
    · intro others other
      exact Or.inr (only others other ▸ intact)
    · intro others other pbuf member
      obtain rfl : pbuf = 0 := by simpa [only others other] using member
      omega
    · intro others other pbuf member
      obtain rfl : pbuf = 0 := by simpa [only others other] using member
      exact kept
  have taken : state.step (.output (plainCall 1 6 2)) = some { state with
      queue := (state.queue.fill (plainCall 1 6 2)).pbufRef 1, tcpip := .enq 1 } := by
    simp [State.step, State.stepOutput, idle, sMapLowLevelOutput, plainCall]
  obtain ⟨final, finishes, released⟩ := output_releases_iff run down taken rfl (by
    simp [TxQueue.pbufRef, TxQueue.fill, TxQueue.store, plainCall])
  exact ⟨steps, state, _, final, run, down, taken, finishes, released.mpr stuck⟩

/-- The first frame after initialisation, without a link: no packet is published,
so the frame stays queued. -/
theorem output_piles_up : ∃ started final, TxRun [] freshDriver ∧
    freshDriver.adapter.drv.linkStatus = false ∧
    freshDriver.step (.output (plainCall 0 1 7)) = some started ∧ started.tcpip = .enq 0 ∧
    (started.queue.pbufs 0).len = 1 ∧ Finishes started final ∧ ¬ Released freshDriver 0 final := by
  refine ⟨_, _, .start freshDriver_fresh, rfl, rfl, rfl, rfl, down_quiet rfl rfl rfl, ?_⟩
  intro released
  have empty := released.empty
  simp at empty

end Ps2Eth.Smap
