import Ps2Eth.Smap.WakeUp
import Ps2Eth.Smap.ReferenceBalance

/-!
# The head of the transmit queue

With nothing in flight `HandleTxReqs` has the whole ring and the whole FIFO for the
oldest frame. Its first turn is followed step by step, with the TCP/IP thread and the
hardware in between. A frame of length zero looks like an empty queue to it, before the
branch that drops such frames is reached, and a frame larger than the FIFO waits for
space that never comes.
-/

namespace Ps2Eth.Smap

/-- No frame is in flight. -/
structure NothingInFlight (state : State) : Prop where
  ring : state.adapter.drv.numPacketsInTx = 0
  memory : state.adapter.drv.txBufferSpaceAvailable = smapTxBufsize

/-- The steps of a call of `HandleTxReqs` and of the others during it: `ClearPacketQueue`
removes no frame, and a pbuf handed over is not in the queue at that moment. -/
structure Undisturbed (state : State) (action : Action) : Prop where
  running : state.handler ≠ .idle
  stays : action = .tcpip → state.tcpip ≠ .drainUnlink
  outside : ∀ call, action = .output call → ∀ pbufs, state.queue.Queued pbufs → call.pOutput ∉ pbufs

/-- A step of `HandleTxReqs` itself. -/
def turn (_ : State) : Action → List Unit
  | .handler _ => [()]
  | _ => []

/-- The oldest frame, with its length. -/
structure Oldest (state : State) (head : PbufPtr) (length : Nat) : Prop where
  tail : state.queue.txTail = some head
  len : (state.queue.pbufs head).len = length

/-- Where `HandleTxReqs` stands with the oldest frame after some steps of its own. -/
inductive Serving (head : PbufPtr) (length : Nat) (state : State) : Nat → Prop where
  | next (here : state.handler = .next) (free : NothingInFlight state) :
      Serving head length state 0
  | publish (here : state.handler = .publish head length) (some : 0 < length)
      (free : NothingInFlight state) : Serving head length state 1
  | test (here : state.handler = .test head length) (some : 0 < length)
      (free : NothingInFlight state) : Serving head length state 2
  | copy {data : PbufPtr} {bytes : Nat} (here : state.handler = .copy data bytes)
      (fits : fitsTx length) : Serving head length state 3
  | bd {data : PbufPtr} {bytes bdDataPtr : Nat} (here : state.handler = .bd data bytes bdDataPtr)
      (fits : fitsTx length) : Serving head length state 4
  | unpublish {data : PbufPtr} (here : state.handler = .unpublish data) (fits : fitsTx length) :
      Serving head length state 5
  | deq {data : PbufPtr} (here : state.handler = .deq data) (fits : fitsTx length) :
      Serving head length state 6

/-- What has become of the oldest frame: it was removed, `HandleTxReqs` returned without
it, or it is being served. -/
inductive HeadState (head : PbufPtr) (length : Nat) (steps : List (State × Action))
    (state : State) : Prop where
  | removed (member : head ∈ Runs.observed removals steps) (fits : fitsTx length)
  | blocked (stays : head ∉ Runs.observed removals steps) (outsize : ¬ fitsTx length)
      (here : state.handler = .idle)
  | served (stays : head ∉ Runs.observed removals steps) (oldest : Oldest state head length)
      (serving : Serving head length state (Runs.observed turn steps).length)

section Step

variable {state next : State} {action : Action} {head : PbufPtr} {length turns : Nat}

/-- As long as it serves the frame, `HandleTxReqs` has not returned. -/
theorem Serving.busy (serving : Serving head length state turns) : state.handler ≠ .idle := by
  cases serving with
  | next here | publish here | test here | copy here | bd here | unpublish here | deq here =>
    rw [here]
    simp

/-- As long as it serves the frame it has made fewer than seven steps. -/
theorem Serving.early (serving : Serving head length state turns) : turns < 7 := by
  cases serving <;> decide

/-- Where the thread stands and what is in flight is all that serving a frame depends on. -/
theorem Serving.frame (serving : Serving head length state turns)
    (handler : next.handler = state.handler)
    (free : NothingInFlight state → NothingInFlight next) : Serving head length next turns := by
  cases serving with
  | next here nothing => exact .next (handler.trans here) (free nothing)
  | publish here some nothing => exact .publish (handler.trans here) some (free nothing)
  | test here some nothing => exact .test (handler.trans here) some (free nothing)
  | copy here fits => exact .copy (handler.trans here) fits
  | bd here fits => exact .bd (handler.trans here) fits
  | unpublish here fits => exact .unpublish (handler.trans here) fits
  | deq here fits => exact .deq (handler.trans here) fits

/-- The others leave the oldest frame where it is. -/
theorem others_oldest (held : state.Held) (undisturbed : Undisturbed state action)
    (ofOthers : action.ofOthers = true) (moves : Moves state action next)
    (oldest : Oldest state head length) : Oldest next head length := by
  obtain ⟨tail, len⟩ := oldest
  obtain ⟨pbufs, queued, covered⟩ := held
  have member : head ∈ pbufs := by
    have chain : Linked.Chain state.queue.next (some head) pbufs := tail ▸ queued
    obtain ⟨rest, rfl, -⟩ := Linked.chain_some chain
    exact List.mem_cons_self
  have kept {queue : TxQueue} (same : (queue.pbufs head).content = (state.queue.pbufs head).content) :
      (queue.pbufs head).len = length := (content_len same).trans len
  cases moves with
  | linked | unlinked | signal | take | leave | drain | drained | drainEmpty | complete | setEvents =>
    exact ⟨tail, len⟩
  | drainUnlink here => exact absurd here (undisturbed.stays rfl)
  | refused => exact ⟨tail, kept (TxQueue.pbufRef_content _ _ _)⟩
  | drainFree => exact ⟨tail, kept (TxQueue.pbufFree_content _ _ _)⟩
  | drainClear => exact ⟨tail, kept (TxQueue.setNext_content _ _ _ _)⟩
  | enq =>
    refine ⟨?_, kept (TxQueue.enQTxPacket_content _ _ _)⟩
    simp [tail]
  | @whole call here =>
    have other : head ≠ call.pOutput := by
      rintro rfl
      exact undisturbed.outside call rfl pbufs queued member
    refine ⟨tail, kept ?_⟩
    rw [TxQueue.pbufRef_content]
    exact TxQueue.store_content fun same => absurd same other
  | @coalesced call copy here split given apart unused =>
    have other : head ≠ copy := by
      rintro rfl
      exact (covered.unused unused).1 member
    refine ⟨tail, kept ?_⟩
    rw [TxQueue.store_content fun same => absurd same other, TxQueue.pbufFree_content,
      TxQueue.pbufRef_content]
  | _ => simp [Action.ofOthers] at ofOthers

/-- So they do with the place of `HandleTxReqs` and the frames in flight. -/
theorem others_serving (ofOthers : action.ofOthers = true) (moves : Moves state action next)
    (serving : Serving head length state turns) : Serving head length next turns := by
  cases moves with
  | refused | coalesced | whole | enq | linked | unlinked | signal | take | leave | drain | drained
    | drainUnlink | drainEmpty | drainClear | drainFree | complete | setEvents =>
    exact serving.frame rfl fun free => ⟨free.ring, free.memory⟩
  | _ => simp [Action.ofOthers] at ofOthers

/-- With nothing in flight a frame that has bytes fits, or is larger than the FIFO. -/
theorem fitsTx_of_rounded {length : Nat} (some : 0 < length) :
    sizeRounded length ≤ smapTxBufsize ↔ fitsTx length := by
  unfold fitsTx sizeRounded smapTxBufsize
  omega

/-- A step of `HandleTxReqs` serves the oldest frame further, removes it, or returns.

Proof: by the place in the iteration. Its two tests ask for a length and for room, and
with nothing in flight the room is all of the FIFO, so both come to `fitsTx`. -/
theorem handler_serves {dmaOk : Bool} (taken : state.step (.handler dmaOk) = some next)
    (oldest : Oldest state head length) (serving : Serving head length state turns) :
    (removals state (.handler dmaOk) = [] ∧ Oldest next head length ∧
        Serving head length next (turns + 1)) ∨
      (removals state (.handler dmaOk) = [] ∧ ¬ fitsTx length ∧ next.handler = .idle) ∨
      (removals state (.handler dmaOk) = [head] ∧ fitsTx length) := by
  obtain ⟨tail, len⟩ := oldest
  cases serving with
  | next here free =>
    simp only [State.step, State.stepHandler, here, sMapTxPacketNext_some tail, len] at taken
    split at taken
    next zero =>
      obtain rfl := Option.some.inj taken
      refine Or.inr (Or.inl ⟨by simp [removals, here], ?_, rfl⟩)
      intro fits
      exact absurd fits.1 (by omega)
    next some =>
      obtain rfl := Option.some.inj taken
      exact Or.inl ⟨by simp [removals, here], ⟨tail, len⟩, .publish rfl (by omega) ⟨free.1, free.2⟩⟩
  | publish here some free =>
    simp only [State.step, State.stepHandler, here] at taken
    obtain rfl := Option.some.inj taken
    exact Or.inl ⟨by simp [removals, here], ⟨tail, len⟩, .test rfl some ⟨free.1, free.2⟩⟩
  | test here some free =>
    have notFull : state.adapter.drv.numPacketsInTx < smapBdMaxEntry := by
      rw [free.ring]
      decide
    simp only [State.step, State.stepHandler, here, notFull, some, if_true] at taken
    split at taken
    next room =>
      obtain rfl := Option.some.inj taken
      rw [free.memory, fitsTx_of_rounded some] at room
      exact Or.inl ⟨by simp [removals, here], ⟨tail, len⟩, .copy rfl room⟩
    next room =>
      obtain rfl := Option.some.inj taken
      rw [free.memory, fitsTx_of_rounded some] at room
      exact Or.inr (Or.inl ⟨by simp [removals, here], room, rfl⟩)
  | copy here fits =>
    simp only [State.step, State.stepHandler, here] at taken
    obtain rfl := Option.some.inj taken
    exact Or.inl ⟨by simp [removals, here], ⟨tail, len⟩, .bd rfl fits⟩
  | bd here fits =>
    simp only [State.step, State.stepHandler, here] at taken
    obtain rfl := Option.some.inj taken
    exact Or.inl ⟨by simp [removals, here], ⟨tail, len⟩, .unpublish rfl fits⟩
  | unpublish here fits =>
    simp only [State.step, State.stepHandler, here] at taken
    obtain rfl := Option.some.inj taken
    exact Or.inl ⟨by simp [removals, here], ⟨tail, len⟩, .deq rfl fits⟩
  | deq here fits =>
    exact Or.inr (Or.inr ⟨by simp [removals, here, tail], fits⟩)

end Step

section Run

variable {state started final : State} {head : PbufPtr} {length : Nat}
  {after : List (State × Action)}

/-- A step keeps track of the oldest frame. -/
theorem step_headState {steps : List (State × Action)} {next : State} {action : Action}
    (held : state.Held) (undisturbed : Undisturbed state action)
    (taken : state.step action = some next) (before : HeadState head length steps state) :
    HeadState head length (steps ++ [(state, action)]) next := by
  cases before with
  | removed member fits =>
    apply HeadState.removed ?_ fits
    rw [Runs.observed_snoc]
    exact List.mem_append_left _ member
  | blocked _ _ here => exact absurd here undisturbed.running
  | served stays oldest serving =>
    have moves := step_moves taken
    cases action with
    | output | tcpip | complete | setEvents =>
      refine .served ?_ (others_oldest held undisturbed rfl moves oldest) ?_
      · simpa [Runs.observed_snoc, removals] using stays
      · simpa [Runs.observed_snoc, turn] using others_serving rfl moves serving
    | handleTxReqs | handleTxIntr | link | waitEvents =>
      have idle : state.handler = .idle := by
        cases moves
        assumption
      exact absurd idle undisturbed.running
    | handler dmaOk =>
      rcases handler_serves taken oldest serving with ⟨none, goesOn, later⟩ | ⟨none, outsize, idle⟩ |
        ⟨gone, fits⟩
      · refine .served ?_ goesOn ?_
        · simpa [Runs.observed_snoc, none] using stays
        · simpa [Runs.observed_snoc, turn] using later
      · refine .blocked ?_ outsize idle
        simpa [Runs.observed_snoc, none] using stays
      · apply HeadState.removed ?_ fits
        simp [Runs.observed_snoc, gone]

/-- A step of `HandleTxReqs` is always possible while it runs. -/
theorem handler_goesOn (running : state.handler ≠ .idle) (dmaOk : Bool) :
    ∃ next, state.step (.handler dmaOk) = some next := by
  rw [← Option.isSome_iff_exists]
  unfold State.step State.stepHandler
  dsimp only
  split
  next here => exact absurd here running
  all_goals
    repeat' split
    all_goals rfl

/-- A call of `HandleTxReqs`, up to its return or its seventh step at least. -/
structure Serves (started : State) (after : List (State × Action)) (final : State) : Prop where
  run : RunFrom started after final
  undisturbed : Runs.Meets Undisturbed after
  done : final.handler = .idle ∨ 7 ≤ (Runs.observed turn after).length

/-- The call removes the oldest frame, in its seventh step at the latest. -/
structure RemovesHead (started : State) (head : PbufPtr) : Prop where
  ends : ∃ after final, Serves started after final
  removes : ∀ after final, Serves started after final → head ∈ Runs.observed removals after

/-- The thread's own steps disturb nothing. -/
theorem undisturbed_of (running : state.handler ≠ .idle) {action : Action}
    (own : action.ofHandler = true) : Undisturbed state action := by
  refine ⟨running, ?_, ?_⟩
  · rintro rfl
    simp [Action.ofHandler] at own
  · rintro call rfl
    simp [Action.ofHandler] at own

/-- A call comes to its end, or to any number of steps. -/
theorem serves_exists (started : State) (count : Nat) : ∃ after final, RunFrom started after final ∧
    Runs.Meets Undisturbed after ∧
    (final.handler = .idle ∨ count ≤ (Runs.observed turn after).length) := by
  induction count with
  | zero => exact ⟨[], started, Runs.Run.start rfl, Runs.meets_nil _, Or.inr (Nat.zero_le _)⟩
  | succ count inductionHypothesis =>
    obtain ⟨after, final, run, undisturbed, idle | counted⟩ := inductionHypothesis
    · exact ⟨after, final, run, undisturbed, Or.inl idle⟩
    · by_cases idle : final.handler = .idle
      · exact ⟨after, final, run, undisturbed, Or.inl idle⟩
      · obtain ⟨next, taken⟩ := handler_goesOn idle true
        refine ⟨after ++ [(final, .handler true)], next, Runs.Run.snoc run taken, ?_, Or.inr ?_⟩
        · exact (Runs.meets_snoc _ _ _ _).mpr ⟨undisturbed, undisturbed_of idle rfl⟩
        · simpa [Runs.observed_snoc, turn] using counted

/-- The oldest frame behind a call of `HandleTxReqs` with nothing in flight. -/
theorem serves_headState (held : state.Held) (oldest : state.queue.txTail = some head)
    (free : NothingInFlight state) (called : state.step .handleTxReqs = some started)
    (serves : Serves started after final) :
    HeadState head (state.queue.pbufs head).len after final := by
  have initially : HeadState head (state.queue.pbufs head).len [] started := by
    cases step_moves called with
    | handleTxReqs here =>
      exact .served (by simp) ⟨oldest, rfl⟩ (.next rfl ⟨free.ring, free.memory⟩)
  have tracked : final.Held ∧ HeadState head (state.queue.pbufs head).len after final := by
    apply Runs.invariant (fun steps reached => reached.Held ∧
      HeadState head (state.queue.pbufs head).len steps reached) ?_ ?_ serves.run serves.undisturbed
    · rintro first rfl
      exact ⟨moves_held held (step_moves called), initially⟩
    · rintro steps before action next ⟨heldBefore, headBefore⟩ admitted taken
      exact ⟨moves_held heldBefore (step_moves taken),
        step_headState heldBefore admitted taken headBefore⟩
  exact tracked.2

/-- With nothing in flight, a call of `HandleTxReqs` removes the oldest frame exactly if
its length is that of a frame. It has come to the end of its service by then, so no third
outcome is left. -/
theorem serves_removes_iff (held : state.Held) (oldest : state.queue.txTail = some head)
    (free : NothingInFlight state) (called : state.step .handleTxReqs = some started)
    (serves : Serves started after final) :
    head ∈ Runs.observed removals after ↔ fitsTx (state.queue.pbufs head).len := by
  cases serves_headState held oldest free called serves with
  | removed member fits => exact iff_of_true member fits
  | blocked stays outsize => exact iff_of_false stays outsize
  | served _ _ serving =>
    rcases serves.done with idle | seven
    · exact absurd idle serving.busy
    · exact absurd serving.early (by omega)

/-- Called with nothing in flight and a frame in the queue, `HandleTxReqs` removes the
oldest frame exactly if that has between one byte and the size of the FIFO.

Proof: the call is followed to the end of its first iteration, in a run that exists and
that nothing disturbs. The length of the frame is tested there, and in every such run the
head is removed or stays by the same test. -/
theorem removesHead_iff (held : state.Held) (oldest : state.queue.txTail = some head)
    (free : NothingInFlight state) (called : state.step .handleTxReqs = some started) :
    RemovesHead started head ↔ fitsTx (state.queue.pbufs head).len := by
  obtain ⟨after, final, run, undisturbed, done⟩ := serves_exists started 7
  have serves : Serves started after final := ⟨run, undisturbed, done⟩
  constructor
  · intro removes
    have gone := removes.removes after final serves
    exact (serves_removes_iff held oldest free called serves).mp gone
  · intro fits
    refine ⟨⟨after, final, serves⟩, ?_⟩
    intro _ _ other
    exact (serves_removes_iff held oldest free called other).mpr fits

end Run

/-- A frame of any length may be the only one in the queue, with nothing in flight and
`HandleTxReqs` about to be called. -/
theorem waiting_exists (length : Nat) : ∃ steps state started, TxRun steps state ∧
    state.queue.txTail = some 0 ∧ (state.queue.pbufs 0).len = length ∧ NothingInFlight state ∧
    state.step .handleTxReqs = some started := by
  obtain ⟨steps, state, run, tail, len, ring, memory, idle⟩ := Runs.run_of_performed State.step
    (fun _ state => state.queue.txTail = some 0 ∧ (state.queue.pbufs 0).len = length ∧
      state.adapter.drv.numPacketsInTx = 0 ∧
      state.adapter.drv.txBufferSpaceAvailable = smapTxBufsize ∧ state.handler = .idle)
    freshDriver_fresh (.link true :: outputActions (plainCall 0 length 1)) (by
      simp [Runs.replay, outputActions, plainCall, freshDriver, State.step, State.stepOutput,
        State.stepTcpip, State.setLinkStatus, sMapLowLevelOutput, TxQueue.fill, TxQueue.pbufRef,
        TxQueue.enQTxPacket, TxQueue.setNext, TxQueue.store, List.replicate, smapInit])
  exact ⟨steps, state, { state with handler := .next }, run, tail, len, ⟨ring, memory⟩,
    if_pos idle⟩

/-- A frame of 60 bytes is removed. -/
theorem removesHead_short : ∃ steps state started, TxRun steps state ∧
    (state.queue.pbufs 0).len = 60 ∧ state.step .handleTxReqs = some started ∧
    (RemovesHead started 0 ↔ fitsTx (state.queue.pbufs 0).len) := by
  obtain ⟨steps, state, started, run, tail, len, free, called⟩ := waiting_exists 60
  exact ⟨steps, state, started, run, len, called, removesHead_iff (run_held run) tail free called⟩

/-- A frame of the given length can block the queue: nothing is in flight, and a call of
`HandleTxReqs` does not remove it. -/
def Blocks (length : Nat) : Prop :=
  ∃ steps state started, TxRun steps state ∧ state.queue.txTail = some 0 ∧
    (state.queue.pbufs 0).len = length ∧ NothingInFlight state ∧
    state.step .handleTxReqs = some started ∧ ¬ RemovesHead started 0

/-- Every other length blocks the queue. -/
theorem blocks_of_outsize {length : Nat} (outsize : ¬ fitsTx length) : Blocks length := by
  obtain ⟨steps, state, started, run, tail, len, free, called⟩ := waiting_exists length
  refine ⟨steps, state, started, run, tail, len, free, called, ?_⟩
  intro removes
  obtain ⟨after, final, serves⟩ := removes.ends
  have fits := (serves_removes_iff (run_held run) tail free called serves).mp
    (removes.removes after final serves)
  rw [len] at fits
  exact outsize fits

/-- A frame without bytes, and one of 4097. -/
theorem removesHead_fails : Blocks 0 ∧ Blocks 4097 := by
  constructor
  · apply blocks_of_outsize
    simp [fitsTx]
  · apply blocks_of_outsize
    simp [fitsTx, smapTxBufsize]

end Ps2Eth.Smap
