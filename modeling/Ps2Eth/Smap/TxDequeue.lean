import Ps2Eth.Smap.Transmit

/-!
# The frame dequeued and the frame copied

`HandleTxReqs` looks at the oldest frame, copies it, and removes whatever is
oldest then. In between, `ClearPacketQueue` may empty the queue: it takes
`packetToSend` for the sign that frames are stuck, and `HandleTxReqs` publishes
it before it copies. Runs in which the two keep out of each other's way remove
exactly what they copied.
-/

namespace Ps2Eth.Smap

/-- The pbuf that the running iteration of `HandleTxReqs` looked at, up to its
removal. -/
def HandlerPc.peeked : HandlerPc → Option PbufPtr
  | .publish data _ | .test data _ | .copy data _ | .bd data _ _ | .unpublish data | .deq data =>
      some data
  | _ => none

/-- The pbuf that the running iteration has copied and not yet removed. -/
def HandlerPc.copied : HandlerPc → List PbufPtr
  | .bd data _ _ | .unpublish data | .deq data => [data]
  | _ => []

/-- The thread is in the loop of `ClearPacketQueue`. -/
def TcpipPc.draining : TcpipPc → Bool
  | .drainNext | .drainUnlink | .drainClear _ | .drainFree _ => true
  | _ => false

/-- The pbuf whose payload a step copies to the FIFO. -/
def copies (state : State) : Action → List PbufPtr
  | .handler _ => match state.handler with
    | .copy data _ => [data]
    | _ => []
  | _ => []

/-- The pbuf that a step of `HandleTxReqs` removes from the queue. -/
def removals (state : State) : Action → List PbufPtr
  | .handler _ => match state.handler with
    | .deq _ => state.queue.txTail.toList
    | _ => []
  | _ => []

/-- The pbuf that a step of `ClearPacketQueue` takes out of the queue or gives
back. -/
def clears (state : State) : Action → List PbufPtr
  | .tcpip => match state.tcpip with
    | .drainUnlink => state.queue.txTail.toList
    | .drainFree toFree => [toFree]
    | _ => []
  | _ => []

/-- Every iteration so far removed the pbuf it had copied, and none of its pbufs
was cleared under it. -/
structure RemovesCopied (steps : List (State × Action)) (state : State) : Prop where
  matched : Runs.observed copies steps = Runs.observed removals steps ++ state.handler.copied
  kept : Runs.Meets (fun state action => ∀ data, state.handler.peeked = some data →
    data ∉ clears state action) steps

/-- The two users of the queue keep apart: `ClearPacketQueue` does not take a
published packet while an iteration of `HandleTxReqs` is under way, and no
iteration starts on a frame while `ClearPacketQueue` empties the queue. -/
structure KeepsApart (state : State) (action : Action) : Prop where
  take : action = .tcpip → state.tcpip = .clearTake → state.adapter.drv.packetToSend ≠ none →
    state.handler.peeked = none
  peek : ∀ dmaOk, action = .handler dmaOk → state.handler = .next →
    0 < state.queue.sMapTxPacketNext.2 → state.tcpip.draining = false

/-- What an iteration relies on while it runs. -/
structure Peeking (state : State) : Prop where
  oldest : ∀ data, state.handler.peeked = some data → state.queue.txTail = some data
  alone : state.handler.peeked ≠ none → state.tcpip.draining = false
  someBytes : ∀ data length, state.handler = .publish data length ∨ state.handler = .test data length →
    0 < length

/-- In a fresh driver nothing is published. -/
theorem fresh_peeking {state : State} (fresh : Fresh state) : Peeking state := by
  constructor
  · intro data peeked
    simp [fresh.handler, HandlerPc.peeked] at peeked
  · intro peeked
    simp [fresh.handler, HandlerPc.peeked] at peeked
  · intro data length here
    simp [fresh.handler] at here

/-- A handler outside an iteration relies on nothing. -/
theorem peeking_of_none {state : State} (peeked : state.handler.peeked = none) : Peeking state := by
  constructor
  · intro data here
    simp [peeked] at here
  · intro here
    exact absurd peeked here
  · rintro data length (here | here) <;> simp [here, HandlerPc.peeked] at peeked

/-- While the queue is being cleared no iteration is under way. -/
theorem Peeking.none_of_draining {state : State} (peeking : Peeking state)
    (draining : state.tcpip.draining = true) : state.handler.peeked = none := by
  by_contra peeked
  simp [peeking.alone peeked] at draining

/-- Steps that keep apart keep what an iteration relies on.

Proof: by the moves. What the iteration looked at is the head of the queue until it
unlinks it, because the other user of the queue only unlinks where the hypothesis excludes
that. -/
theorem moves_peeking {state next : State} {action : Action} (peeking : Peeking state)
    (apart : KeepsApart state action) (moves : Moves state action next) : Peeking next := by
  cases moves with
  | refused | setEvents | complete => exact ⟨peeking.oldest, peeking.alone, peeking.someBytes⟩
  | coalesced | whole | linked | unlinked | signal | leave =>
    exact ⟨peeking.oldest, fun _ => rfl, peeking.someBytes⟩
  | @enq tx here =>
    refine ⟨?_, fun _ => rfl, peeking.someBytes⟩
    intro data peeked
    have oldest := peeking.oldest data peeked
    simp [oldest]
  | take here sending => exact peeking_of_none (apart.take rfl here (by simp [sending]))
  | drain here | drained here | drainUnlink here | drainEmpty here | drainClear here
    | drainFree here =>
    exact peeking_of_none (peeking.none_of_draining (by rw [here]; rfl))
  | handleTxReqs | handleTxIntr | nothing | full | unlink | unlinkEmpty | clear | free | reaped =>
    exact peeking_of_none rfl
  | reap here | link _ here | waitEvents here =>
    exact peeking_of_none (by simp [State.setLinkStatus, here, HandlerPc.peeked])
  | @peek data dmaOk here oldest some =>
    have more : 0 < state.queue.sMapTxPacketNext.2 := by
      rw [sMapTxPacketNext_some oldest]
      exact some
    refine ⟨?_, fun _ => apart.peek dmaOk rfl here more, ?_⟩
    · intro other peeked
      cases peeked
      exact oldest
    · rintro other length (this | this)
      · cases this
        exact some
      · cases this
  | @publish data length dmaOk here =>
    have before : state.handler.peeked = some data := by rw [here]; rfl
    refine ⟨?_, fun _ => peeking.alone (by simp [before]), ?_⟩
    · intro other peeked
      cases peeked
      exact peeking.oldest data before
    · rintro other bytes (this | this)
      · cases this
      · cases this
        exact peeking.someBytes data length (Or.inl here)
  | @fits data _ _ here | @copy data _ _ here | @bd data _ _ _ here | @unpublish data _ here
    | @dropped data _ here =>
    have before : state.handler.peeked = some data := by rw [here]; rfl
    refine ⟨?_, fun _ => peeking.alone (by simp [before]), ?_⟩
    · intro other peeked
      cases peeked
      exact peeking.oldest data before
    · rintro other bytes (this | this) <;> cases this

/-- Steps that keep apart remove what was copied. -/
theorem moves_removesCopied {steps : List (State × Action)} {state next : State} {action : Action}
    (removes : RemovesCopied steps state) (peeking : Peeking state)
    (moves : Moves state action next) :
    RemovesCopied (steps ++ [(state, action)]) next := by
  constructor
  · rw [Runs.observed_snoc, Runs.observed_snoc, removes.matched]
    cases moves with
    | refused | coalesced | whole | enq | linked | unlinked | signal | take | leave | drain | drained
      | drainUnlink | drainEmpty | drainClear | drainFree | complete | setEvents =>
      simp [copies, removals, State.setPacketToSend]
    | dropped here => simpa using peeking.someBytes _ _ (Or.inr here)
    | unlink here oldest =>
      have same := peeking.oldest _ (by rw [here]; rfl)
      simp [copies, removals, here, HandlerPc.copied, same]
    | unlinkEmpty here empty =>
      have same := peeking.oldest _ (by rw [here]; rfl)
      simp [same] at empty
    | handleTxReqs here | handleTxIntr here | peek here | nothing here | publish here | fits here
      | full here | copy here | bd here | unpublish here | clear here | free here | reap here
      | reaped here | link _ here | waitEvents here =>
      simp [copies, removals, State.setLinkStatus, here, HandlerPc.copied]
  · refine (Runs.meets_snoc _ _ _ _).mpr ⟨removes.kept, ?_⟩
    intro data peeked cleared
    have alone := peeking.alone (by simp [peeked])
    cases action with
    | tcpip =>
      simp only [clears] at cleared
      cases here : state.tcpip with
      | drainUnlink | drainFree => simp [here, TcpipPc.draining] at alone
      | _ => simp [here] at cleared
    | _ => simp [clears] at cleared

/-- The frame dequeued is the frame copied, in every run in which the two users
of the queue keep apart.

Proof: by induction on the run, together with what an iteration of `HandleTxReqs` relies
on: while it runs, the pbuf that it looked at stays at the head, as the other user of the
queue takes nothing off then. -/
theorem dequeues_copied {steps : List (State × Action)} {state : State} (run : TxRun steps state)
    (apart : Runs.Meets KeepsApart steps) : RemovesCopied steps state := by
  have both : RemovesCopied steps state ∧ Peeking state := by
    refine Runs.invariant (fun steps state => RemovesCopied steps state ∧ Peeking state) ?_ ?_
      run apart
    · intro fresh initial
      refine ⟨⟨?_, Runs.meets_nil _⟩, fresh_peeking initial⟩
      simp [initial.handler, HandlerPc.copied]
    · rintro earlier before action next ⟨removes, peeking⟩ admitted taken
      have moves := step_moves taken
      exact ⟨moves_removesCopied removes peeking moves, moves_peeking peeking admitted moves⟩
  exact both.1

/-- One frame queued with the link up and moved to the hardware, nothing else. -/
theorem dequeues_copied_one_frame : ∃ steps state, TxRun steps state ∧
    Runs.Meets KeepsApart steps ∧ Runs.observed removals steps = [0] ∧
    RemovesCopied steps state := by
  obtain ⟨steps, state, run, apart, removed⟩ := Runs.run_of_performed State.step
    (fun steps _ => (∀ entry ∈ steps, entry.1.tcpip ≠ .clearTake ∧ entry.1.tcpip.draining = false) ∧
      Runs.observed removals steps = [0])
    freshDriver_fresh (.link true :: (outputActions (plainCall 0 5 1) ++ txReqsActions 9))
    (by decide)
  have keeps : Runs.Meets KeepsApart steps := fun entry member =>
    ⟨fun _ taking => absurd taking (apart entry member).1, fun _ _ _ _ => (apart entry member).2⟩
  exact ⟨steps, state, run, keeps, removed, dequeues_copied run keeps⟩

/-- A frame is queued with the link up; the link is lost; `HandleTxReqs` copies
the frame while the next call of `SMapLowLevelOutput` finds no link, takes the
published packet and clears the queue up to its own frame, which is then removed
unsent. -/
theorem dequeues_uncopied : ∃ steps state, TxRun steps state ∧ ¬ RemovesCopied steps state := by
  obtain ⟨steps, state, run, copied, removed⟩ := Runs.run_of_performed State.step
    (fun steps _ => Runs.observed copies steps = [0] ∧ Runs.observed removals steps = [1])
    freshDriver_fresh (.link true :: (outputActions (plainCall 0 5 1) ++ [.link false] ++
      txReqsActions 4 ++ outputActions (plainCall 1 6 2) ++ List.replicate 5 .tcpip ++
      List.replicate 3 (.handler true))) (by decide)
  refine ⟨steps, state, run, ?_⟩
  intro removes
  have matched := removes.matched
  rw [copied, removed] at matched
  simp at matched

end Ps2Eth.Smap
