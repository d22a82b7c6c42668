import Ps2Eth.Smap.TxDequeue
import Ps2Eth.Smap.References

/-!
# The references of a call of `SMapLowLevelOutput`

A call takes a reference on the pbuf it queues, and `SMapTxPacketDeQ` gives it back
when the pbuf leaves the queue, in `HandleTxReqs` or in `ClearPacketQueue`. Both sides
are read off a run, for each pbuf. They differ by the references of the calls that
found no memory for a copy: `pbuf_ref` was called before `pbuf_coalesce`, and nobody
undoes it.
-/

namespace Ps2Eth.Smap

/-- The reference that `ClearPacketQueue` is about to give back. -/
def TcpipPc.returns (pc : TcpipPc) (pbuf : PbufPtr) : Nat :=
  match pc with
  | .drainClear toFree | .drainFree toFree => listed [toFree] pbuf
  | _ => 0

/-- The references on a pbuf, without those that `SMapTxPacketDeQ` is about to give
back: it has unlinked the pbuf, and `pbuf_free` is next. -/
def State.references (state : State) (pbuf : PbufPtr) : Nat :=
  (state.queue.pbufs pbuf).refs - (state.handler.holds pbuf + state.tcpip.returns pbuf)

/-- The pbuf that a call of `SMapLowLevelOutput` queues. -/
def entering (state : State) : Action → List PbufPtr
  | .output call => match sMapLowLevelOutput state.queue call with
    | some (_, some tx) => [tx]
    | _ => []
  | _ => []

/-- The pbuf that `SMapTxPacketDeQ` unlinks, for either thread. -/
def leaving (state : State) : Action → List PbufPtr
  | .tcpip => match state.tcpip with
    | .drainUnlink => state.queue.txTail.toList
    | _ => []
  | action => removals state action

/-- `pbuf_coalesce` has to copy and returns its argument. -/
def OutputCall.NoMemory (call : OutputCall) : Prop :=
  call.len < call.totLen ∧ call.coalesced = none

/-- Whether a call has no memory can be seen from it. -/
instance (call : OutputCall) : Decidable call.NoMemory := inferInstanceAs (Decidable (_ ∧ _))

/-- The pbuf of a call that fails. -/
def refusals (_ : State) : Action → List PbufPtr
  | .output call => if call.NoMemory then [call.pOutput] else []
  | _ => []

/-- As often as the pbuf was handed over it has left the queue, by way of
`SMapTxPacketDeQ`. -/
def Left (pbuf : PbufPtr) (steps : List (State × Action)) : Prop :=
  (Runs.observed leaving steps).count pbuf = (Runs.observed entering steps).count pbuf

/-- The references of a call, seen at the end of the steps behind it. If it fails, they
are what they were, and nothing is queued. If it succeeds and the queued pbuf has left,
they are what they were, and a copy is free. -/
structure Balanced (state : State) (call : OutputCall) (after : List (State × Action))
    (final : State) : Prop where
  errMem : ∀ queue, sMapLowLevelOutput state.queue call = some (queue, none) →
    (queue.pbufs call.pOutput).refs = (state.queue.pbufs call.pOutput).refs ∧
      ∀ pbufs, queue.Queued pbufs ↔ state.queue.Queued pbufs
  errOk : ∀ queue tx, sMapLowLevelOutput state.queue call = some (queue, some tx) →
    (∀ pbuf ∈ [call.pOutput, tx], Left pbuf ((state, .output call) :: after)) →
      final.references call.pOutput = state.references call.pOutput ∧
        (tx ≠ call.pOutput → final.references tx = 0)

/-- In a list of one pbuf counting and being listed are the same. -/
theorem count_listed (only pbuf : PbufPtr) : [only].count pbuf = listed [only] pbuf := by
  unfold listed
  by_cases same : pbuf = only
  · subst same
    simp
  · have other : ¬ only = pbuf := fun here => same here.symm
    simp [same, other]

/-- A call that finds no memory is the only one that fails. -/
theorem refused_iff {queue : TxQueue} {call : OutputCall} :
    (∃ after, sMapLowLevelOutput queue call = some (after, none)) ↔ call.NoMemory := by
  unfold sMapLowLevelOutput OutputCall.NoMemory
  by_cases split : call.len < call.totLen
  · simp only [split, true_and]
    cases call.coalesced with
    | none => simp
    | some copy =>
      by_cases usable : copy ≠ call.pOutput ∧ (queue.pbufs copy).refs = 0
      · simp [usable]
      · simp [usable]
  · simp [split]

/-- The TCP/IP thread is about to queue the pbuf. -/
def TcpipPc.enqueues (pc : TcpipPc) (pbuf : PbufPtr) : Nat :=
  match pc with
  | .enq tx => listed [tx] pbuf
  | _ => 0

/-- A pbuf in the hands of the TCP/IP thread is about to be queued or about to be given
back. -/
theorem holds_split (pc : TcpipPc) (pbuf : PbufPtr) :
    pc.holds pbuf = pc.enqueues pbuf + pc.returns pbuf := by
  cases pc with
  | enq tx => simp [TcpipPc.holds, TcpipPc.enqueues, TcpipPc.returns]
  | _ => simp [TcpipPc.holds, TcpipPc.enqueues, TcpipPc.returns]

section Moves

variable {state next : State} {action : Action} {call : OutputCall}

/-- A frame of one pbuf is queued as it is. -/
theorem entering_whole (state : State) (single : ¬ call.len < call.totLen) :
    entering state (.output call) = [call.pOutput] ∧ ¬ call.NoMemory := by
  refine ⟨by simp [entering, sMapLowLevelOutput, single], ?_⟩
  intro refused
  exact single refused.1

/-- Of a frame of several pbufs the copy is queued. -/
theorem entering_coalesced {copy : PbufPtr} (split : call.len < call.totLen)
    (given : call.coalesced = some copy) (other : copy ≠ call.pOutput)
    (unused : (state.queue.pbufs copy).refs = 0) :
    entering state (.output call) = [copy] ∧ ¬ call.NoMemory := by
  refine ⟨by simp [entering, sMapLowLevelOutput, split, given, other, unused], ?_⟩
  intro refused
  rw [refused.2] at given
  cases given

/-- The oldest pbuf is in the queue. -/
theorem oldest_listed {pbufs : List PbufPtr} {toFree : PbufPtr} (queued : state.queue.Queued pbufs)
    (oldest : state.queue.txTail = some toFree) (pbuf : PbufPtr) :
    listed [toFree] pbuf ≤ listed pbufs pbuf := by
  obtain ⟨shorter, -, bound⟩ := unlinkTail_covered queued oldest
  have moved := bound pbuf
  omega

/-- What a step changes of the references on a pbuf.

Proof: by the moves. The steps that change a count are those of a call, where it takes
references and may lose one, and those that give back what was dequeued; for the others
the references only move from one place to another. -/
theorem moves_references (held : state.Held) (moves : Moves state action next) (pbuf : PbufPtr) :
    next.references pbuf + (leaving state action).count pbuf =
      state.references pbuf + (entering state action).count pbuf +
        (refusals state action).count pbuf := by
  obtain ⟨pbufs, queued, covered⟩ := held
  have cover := covered pbuf
  cases moves with
  | linked here | unlinked here | signal here | take here | leave here | drain here | drained here =>
    simp [State.references, State.setPacketToSend, leaving, entering, refusals, here,
      TcpipPc.returns]
  | handleTxReqs here | handleTxIntr here | peek here | nothing here | publish here | fits here
    | dropped here | full here | copy here | bd here | unpublish here | reap here | reaped here =>
    simp [State.references, State.setPacketToSend, leaving, removals, entering, refusals, here,
      HandlerPc.holds]
  | complete | link | setEvents | waitEvents =>
    simp [State.references, State.setLinkStatus, leaving, removals, entering, refusals]
  | @refused call here split noMemory =>
    have refused : call.NoMemory := ⟨split, noMemory⟩
    have none : entering state (.output call) = [] := by
      simp [entering, sMapLowLevelOutput, split, noMemory]
    simp only [State.references, leaving, removals, none, refusals, refused, if_true,
      List.count_nil, count_listed, TxQueue.pbufRef_refs, here, TcpipPc.returns]
    omega
  | @whole call here single =>
    obtain ⟨queues, accepted⟩ := entering_whole state single
    simp only [State.references, leaving, removals, queues, refusals, accepted, if_false,
      List.count_nil, count_listed, TxQueue.pbufRef_refs, TxQueue.fill_refs, here, TcpipPc.returns]
    omega
  | @coalesced call copy here split given other unused =>
    obtain ⟨queues, accepted⟩ := entering_coalesced split given other unused
    obtain ⟨-, noHandler, -⟩ := covered.unused unused
    simp only [State.references, leaving, removals, queues, refusals, accepted, if_false,
      List.count_nil, count_listed, TxQueue.store_refs, TxQueue.pbufFree_refs,
      TxQueue.pbufRef_refs, OutputCall.copied, here, TcpipPc.returns]
    by_cases same : pbuf = copy
    · subst same
      simp [listed, unused, noHandler]
    · simp only [same, if_false, listed, List.mem_singleton]
      omega
  | enq here =>
    simp [State.references, leaving, entering, refusals, here, TcpipPc.returns]
  | @drainUnlink toFree here oldest =>
    have head := oldest_listed queued oldest pbuf
    have unlinks : leaving state .tcpip = [toFree] := by
      simp [leaving, here, oldest]
    simp only [here, TcpipPc.holds] at cover
    simp only [State.references, unlinks, entering, refusals, List.count_nil, count_listed,
      TxQueue.unlinkTail_pbufs, here, TcpipPc.returns]
    omega
  | @unlink data toFree dmaOk here oldest =>
    have head := oldest_listed queued oldest pbuf
    have unlinks : leaving state (.handler dmaOk) = [toFree] := by
      simp [leaving, removals, here, oldest]
    have parts := holds_split state.tcpip pbuf
    simp only [here, HandlerPc.holds] at cover
    simp only [State.references, unlinks, entering, refusals, List.count_nil, count_listed,
      TxQueue.unlinkTail_pbufs, here, HandlerPc.holds]
    omega
  | drainEmpty here empty =>
    simp [State.references, leaving, entering, refusals, here, empty, TcpipPc.returns]
  | unlinkEmpty here empty =>
    simp [State.references, leaving, removals, entering, refusals, here, empty, HandlerPc.holds]
  | drainClear here =>
    simp [State.references, leaving, entering, refusals, here, TcpipPc.returns]
  | clear here =>
    simp [State.references, leaving, removals, entering, refusals, here, HandlerPc.holds]
  | @drainFree toFree here =>
    simp only [here, TcpipPc.holds] at cover
    simp only [State.references, leaving, entering, refusals, List.count_nil,
      TxQueue.pbufFree_refs, here, TcpipPc.returns]
    omega
  | @free toFree dmaOk here =>
    have parts := holds_split state.tcpip pbuf
    simp only [here, HandlerPc.holds] at cover
    simp only [State.references, leaving, removals, entering, refusals, List.count_nil,
      TxQueue.pbufFree_refs, here, HandlerPc.holds]
    omega

/-- A pbuf leaves the queue only if it was in it or was handed over.

Proof: by the moves. Only `EnQTxPacket` lengthens the chain, by the pbuf that was handed
over, and only the two ways of unlinking its head shorten it. -/
theorem moves_leaving {pbufs : List PbufPtr} (queued : state.queue.Queued pbufs)
    (covered : state.Covered pbufs) (moves : Moves state action next) (pbuf : PbufPtr) :
    ∃ later, next.queue.Queued later ∧
      listed later pbuf + next.tcpip.enqueues pbuf + (leaving state action).count pbuf ≤
        listed pbufs pbuf + state.tcpip.enqueues pbuf + (entering state action).count pbuf := by
  cases moves with
  | linked here | unlinked here | signal here | take here | leave here | drain here | drained here =>
    refine ⟨pbufs, queued, ?_⟩
    simp [leaving, here, TcpipPc.enqueues]
  | drainEmpty here empty =>
    refine ⟨pbufs, queued, ?_⟩
    simp [leaving, here, empty, TcpipPc.enqueues]
  | handleTxReqs here | handleTxIntr here | peek here | nothing here | publish here | fits here
    | dropped here | full here | copy here | bd here | unpublish here | reap here | reaped here =>
    refine ⟨pbufs, queued, ?_⟩
    simp [leaving, removals, here, State.setPacketToSend]
  | unlinkEmpty here empty =>
    refine ⟨pbufs, queued, ?_⟩
    simp [leaving, removals, here, empty]
  | complete | link | setEvents | waitEvents =>
    refine ⟨pbufs, queued, ?_⟩
    simp [leaving, removals, State.setLinkStatus]
  | refused here =>
    refine ⟨pbufs, by simpa using queued, ?_⟩
    simp [leaving, removals, here, TcpipPc.enqueues]
  | @whole call here single =>
    refine ⟨pbufs, by simpa using queued, ?_⟩
    obtain ⟨queues, -⟩ := entering_whole state single
    simp only [leaving, removals, queues, List.count_nil, count_listed, TcpipPc.enqueues]
    omega
  | @coalesced call copy here split given other unused =>
    obtain ⟨outside, -, -⟩ := covered.unused unused
    refine ⟨pbufs, (TxQueue.store_queued _ outside).mpr (by simpa using queued), ?_⟩
    obtain ⟨queues, -⟩ := entering_coalesced split given other unused
    simp only [leaving, removals, queues, List.count_nil, count_listed, TcpipPc.enqueues]
    omega
  | @enq tx here =>
    obtain ⟨longer, after, bound⟩ := enQTxPacket_listed tx queued
    refine ⟨longer, after, ?_⟩
    have more := bound pbuf
    simp only [leaving, entering, List.count_nil, here, TcpipPc.enqueues]
    omega
  | drainUnlink here oldest =>
    obtain ⟨shorter, after, bound⟩ := unlinkTail_covered queued oldest
    refine ⟨shorter, after, ?_⟩
    have moved := bound pbuf
    simp only [leaving, here, oldest, Option.toList_some, count_listed, entering, List.count_nil,
      TcpipPc.enqueues]
    omega
  | unlink here oldest =>
    obtain ⟨shorter, after, bound⟩ := unlinkTail_covered queued oldest
    refine ⟨shorter, after, ?_⟩
    have moved := bound pbuf
    simp only [leaving, removals, here, oldest, Option.toList_some, count_listed, entering,
      List.count_nil]
    omega
  | @drainClear toFree here =>
    obtain ⟨shorter, after, bound⟩ := setNext_none_listed toFree queued
    refine ⟨shorter, after, ?_⟩
    have fewer := bound pbuf
    simp only [leaving, here, entering, List.count_nil, TcpipPc.enqueues]
    omega
  | @clear toFree dmaOk here =>
    obtain ⟨shorter, after, bound⟩ := setNext_none_listed toFree queued
    refine ⟨shorter, after, ?_⟩
    have fewer := bound pbuf
    simp only [leaving, removals, here, entering, List.count_nil]
    omega
  | drainFree here =>
    refine ⟨pbufs, by simpa using queued, ?_⟩
    simp [leaving, here, TcpipPc.enqueues]
  | free here =>
    refine ⟨pbufs, by simpa using queued, ?_⟩
    simp [leaving, removals, here]

end Moves

section Run

variable {first final : State} {steps : List (State × Action)}

/-- The runs from one state. -/
abbrev RunFrom (first : State) := Runs.Run State.step (fun state => state = first)

/-- A single step is a run from the state it was taken in. -/
theorem runFrom_step {next : State} {action : Action} (taken : first.step action = some next) :
    RunFrom first [(first, action)] next := by
  have start : RunFrom first [] first := Runs.Run.start rfl
  exact Runs.Run.snoc start taken

/-- The references stay accounted for in a run that starts with them accounted for. -/
theorem runFrom_held (held : first.Held) (run : RunFrom first steps final) : final.Held := by
  apply Runs.state_invariant State.Held ?_ ?_ run
  · rintro state rfl
    exact held
  · intro before action next heldBefore taken
    exact moves_held heldBefore (step_moves taken)

/-- What a run changes of the references on a pbuf: those of the calls that queued it
come, those of `SMapTxPacketDeQ` go, and those of the calls that failed stay. -/
theorem run_references (held : first.Held) (run : RunFrom first steps final) (pbuf : PbufPtr) :
    final.references pbuf + (Runs.observed leaving steps).count pbuf =
      first.references pbuf + (Runs.observed entering steps).count pbuf +
        (Runs.observed refusals steps).count pbuf := by
  induction run with
  | start initial =>
    subst initial
    rfl
  | snoc before taken inductionHypothesis =>
    have changed := moves_references (runFrom_held held before) (step_moves taken) pbuf
    simp only [Runs.observed_snoc, List.count_append]
    omega

/-- A pbuf that was outside the queue leaves it at most as often as it is handed over. -/
theorem run_leaving (held : first.Held) (run : RunFrom first steps final) {pbuf : PbufPtr}
    (outside : ∀ pbufs, first.queue.Queued pbufs → pbuf ∉ pbufs) (idle : first.tcpip = .idle) :
    (Runs.observed leaving steps).count pbuf ≤ (Runs.observed entering steps).count pbuf := by
  have bound : ∃ pbufs, final.queue.Queued pbufs ∧
      listed pbufs pbuf + final.tcpip.enqueues pbuf + (Runs.observed leaving steps).count pbuf ≤
        (Runs.observed entering steps).count pbuf := by
    induction run with
    | start initial =>
      subst initial
      obtain ⟨pbufs, queued, -⟩ := held
      refine ⟨pbufs, queued, ?_⟩
      simp [listed, outside pbufs queued, idle, TcpipPc.enqueues]
    | snoc before taken inductionHypothesis =>
      obtain ⟨pbufs, queued, earlier⟩ := inductionHypothesis
      obtain ⟨members, chain, covered⟩ := runFrom_held held before
      obtain rfl : members = pbufs := Linked.chain_unique chain queued
      obtain ⟨later, after, last⟩ := moves_leaving queued covered (step_moves taken) pbuf
      refine ⟨later, after, ?_⟩
      simp only [Runs.observed_snoc, List.count_append]
      omega
  obtain ⟨pbufs, -, together⟩ := bound
  omega

/-- So a pbuf that was outside the queue and is handed over once has left as soon as it
is unlinked. -/
theorem left_of_leaving (held : first.Held) (run : RunFrom first steps final) {pbuf : PbufPtr}
    (outside : ∀ pbufs, first.queue.Queued pbufs → pbuf ∉ pbufs) (idle : first.tcpip = .idle)
    (once : (Runs.observed entering steps).count pbuf ≤ 1)
    (gone : pbuf ∈ Runs.observed leaving steps) : Left pbuf steps := by
  have bound := run_leaving held run outside idle
  have some := List.count_pos_iff.mpr gone
  unfold Left
  omega

end Run

/-- A call that succeeds queues its own pbuf, or a copy in memory that nobody used. -/
theorem accepted_cases {queue after : TxQueue} {call : OutputCall} {tx : PbufPtr}
    (accepts : sMapLowLevelOutput queue call = some (after, some tx)) :
    tx = call.pOutput ∨ call.coalesced = some tx ∧ (queue.pbufs tx).refs = 0 := by
  unfold sMapLowLevelOutput at accepts
  split at accepts
  · split at accepts
    next => simp at accepts
    next copy given =>
      split at accepts
      next usable =>
        simp only [Option.some.injEq, Prod.mk.injEq] at accepts
        obtain ⟨-, rfl⟩ := accepts
        exact Or.inr ⟨given, usable.2⟩
      next => simp at accepts
  · simp only [Option.some.injEq, Prod.mk.injEq] at accepts
    exact Or.inl accepts.2.symm

/-- The references of a call are balanced exactly when `pbuf_coalesce` does not run out
of memory for it. Other calls may go on meanwhile, as long as none of them loses a
reference on the same pbuf.

Proof: the references on a pbuf change over a run by what is handed over, taken back and
lost to a failed `pbuf_coalesce`. The call itself loses one exactly in that case; every
other call is assumed to lose none of this pbuf. -/
theorem output_balanced_iff {state final : State} {call : OutputCall}
    {after : List (State × Action)} (held : state.Held)
    (run : RunFrom state ((state, .output call) :: after) final)
    (others : ∀ pbuf ∈ Runs.observed refusals after,
      pbuf ≠ call.pOutput ∧ call.coalesced ≠ some pbuf) :
    Balanced state call after final ↔ ¬ call.NoMemory := by
  constructor
  · intro balanced refused
    obtain ⟨queue, fails⟩ := refused_iff.mpr refused
    have same := (balanced.errMem queue fails).1
    simp only [sMapLowLevelOutput, refused.1, refused.2, if_true, Option.some.injEq,
      Prod.mk.injEq, and_true] at fails
    subst fails
    simp [listed] at same
  · intro enough
    have settled (pbuf : PbufPtr) (mine : pbuf = call.pOutput ∨ call.coalesced = some pbuf)
        (left : Left pbuf ((state, .output call) :: after)) :
        final.references pbuf = state.references pbuf := by
      have changed := run_references held run pbuf
      have outside : pbuf ∉ Runs.observed refusals after := by
        intro refused
        rcases mine with own | copy
        · exact (others pbuf refused).1 own
        · exact (others pbuf refused).2 copy
      have none : (Runs.observed refusals ((state, .output call) :: after)).count pbuf = 0 := by
        apply List.count_eq_zero_of_not_mem
        simpa [Runs.observed, refusals, enough] using outside
      unfold Left at left
      omega
    constructor
    · intro queue fails
      exact absurd (refused_iff.mp ⟨queue, fails⟩) enough
    · intro queue tx accepts left
      refine ⟨settled _ (Or.inl rfl) (left _ (by simp)), ?_⟩
      intro other
      rcases accepted_cases accepts with own | ⟨copy, unused⟩
      · exact absurd own other
      · rw [settled tx (Or.inr copy) (left tx (by simp)), State.references, unused, Nat.zero_sub]

/-- A frame of two pbufs, and what `pbuf_coalesce` returns for it. -/
def chainCall (coalesced : Option PbufPtr) : OutputCall := ⟨0, 6, 3, fun _ => 1, coalesced⟩

/-- They are accounted for in the fresh driver. -/
theorem freshDriver_held : freshDriver.Held := fresh_held freshDriver_fresh

/-- The frame is copied, queued with the link up, and moved to the hardware. -/
theorem output_balanced_copied : ∃ after final,
    RunFrom freshDriver ((freshDriver, .output (chainCall (some 1))) :: after) final ∧
    Runs.observed leaving after = [1] ∧
    (Balanced freshDriver (chainCall (some 1)) after final ↔ ¬ (chainCall (some 1)).NoMemory) := by
  have started : ∃ next, RunFrom freshDriver [(freshDriver, .output (chainCall (some 1)))] next ∧
      (Runs.replay State.step next (.link true :: (List.replicate 3 .tcpip ++ txReqsActions 9))).any
        (fun result => Runs.observed refusals result.1 = [] ∧
          Runs.observed leaving result.1 = [1]) :=
    ⟨_, runFrom_step rfl, by decide⟩
  obtain ⟨next, call, performed⟩ := started
  obtain ⟨after, final, run, refused, gone⟩ := Runs.run_append_performed
    (fun more _ => Runs.observed refusals more = [] ∧ Runs.observed leaving more = [1])
    call _ performed
  have whole : RunFrom freshDriver ((freshDriver, .output (chainCall (some 1))) :: after) final := run
  refine ⟨after, final, whole, gone, output_balanced_iff freshDriver_held whole ?_⟩
  intro pbuf member
  rw [refused] at member
  simp at member

/-- There is no memory for the copy. -/
theorem output_unbalanced : ∃ final,
    RunFrom freshDriver [(freshDriver, .output (chainCall none))] final ∧
    ¬ Balanced freshDriver (chainCall none) [] final := by
  refine ⟨_, runFrom_step rfl, ?_⟩
  intro balanced
  have same := (balanced.errMem _ rfl).1
  exact absurd same (by decide)

end Ps2Eth.Smap
