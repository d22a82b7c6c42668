import Ps2Eth.SmapLinux.TxRing

/-!
# The descriptor ring of the smap-linux driver

The two indices tell the frames sent and not yet reaped only up to a multiple of
the ring size. `SMap_Send` looks at the free bytes and never at the descriptors,
so 64 short frames bring the end index back to the start: the full ring reads as
an empty one.
-/

namespace Ps2Eth.SmapLinux

/-- The end index is ahead of the start index by the frames not yet reaped. -/
structure Indexed (state : State) : Prop where
  start : state.smap.tx.u8IndexStart < smapBdMaxEntry
  ahead : state.smap.tx.u8IndexEnd =
    (state.smap.tx.u8IndexStart + state.unreaped.length) % smapBdMaxEntry

/-- The end index stays inside the ring. -/
theorem Indexed.end_lt {state : State} (indexed : Indexed state) :
    state.smap.tx.u8IndexEnd < smapBdMaxEntry := by
  rw [indexed.ahead]
  exact Nat.mod_lt _ (by decide)

/-- An active range that is not empty has a frame to reap. -/
theorem Indexed.unreaped_of_active {state : State} (indexed : Indexed state)
    (active : state.smap.tx.u8IndexStart ≠ state.smap.tx.u8IndexEnd) :
    state.unreaped.length % smapBdMaxEntry ≠ 0 := by
  have start := indexed.start
  have ahead := indexed.ahead
  simp only [smapBdMaxEntry] at *
  omega

/-- While the ring is not full, equal indices mean an empty ring. -/
theorem Indexed.empty_iff {state : State} (indexed : Indexed state)
    (notFull : state.unreaped.length < smapBdMaxEntry) :
    state.smap.tx.u8IndexStart = state.smap.tx.u8IndexEnd ↔ state.unreaped = [] := by
  have start := indexed.start
  have ahead := indexed.ahead
  rw [← List.length_eq_zero_iff]
  simp only [smapBdMaxEntry] at *
  omega

/-- After `SMap_Open` both indices are zero and no frame is in flight. -/
theorem initialised_indexed {state : State} (initial : Initialised state) : Indexed state := by
  constructor
  · simp [initial.tx, txBdInit, smapBdMaxEntry]
  · simp [initial.tx, initial.unreaped, txBdInit]

/-- Every step keeps the indices in step with the frames. -/
theorem moves_indexed {state next : State} {action : Action} (indexed : Indexed state)
    (moves : Moves state action next) : Indexed next := by
  have start := indexed.start
  have ahead := indexed.ahead
  cases moves with
  | refused | handleTXInt | unfinished | reaped | complete | link => exact ⟨start, ahead⟩
  | sent here accepted =>
    have after := accepted.append
    constructor
    · rw [after]
      exact start
    · rw [after, SMapCB.append, List.length_append, List.length_singleton]
      simp only
      rw [smapBdNext_eq indexed.end_lt, ahead, Nat.mod_add_mod, Nat.add_assoc]
  | reap here reaps =>
    have some := indexed.unreaped_of_active reaps.1
    constructor
    · simp only [State.setTx, SMapCB.reap, smapBdNext_eq start]
      exact Nat.mod_lt _ (by decide)
    · simp only [State.setTx, SMapCB.reap, smapBdNext_eq start, List.length_tail, ahead,
        smapBdMaxEntry] at some ⊢
      omega

/-- Only descriptors of frames not yet reaped are ready. -/
def ReadyInside (state : State) : Prop :=
  ∀ index < smapBdMaxEntry, (state.smap.tx.pBD index).ready = true →
    ∃ offset < state.unreaped.length,
      (state.smap.tx.u8IndexStart + offset) % smapBdMaxEntry = index

/-- After `SMap_Open` no descriptor is ready. -/
theorem initialised_readyInside {state : State} (initial : Initialised state) : ReadyInside state := by
  intro index _ ready
  simp [initial.tx, txBdInit, SMapBD.ready] at ready

/-- A completion leaves its descriptor not ready. -/
theorem completed_not_ready (bd : SMapBD) (ctrlStat : BitVec 16) :
    SMapBD.ready { bd with ctrlStat := ctrlStat &&& ~~~smapBdTxReady } = false := by
  have cleared : ctrlStat &&& ~~~smapBdTxReady &&& smapBdTxReady = 0#16 := by
    rw [BitVec.and_assoc]
    have none : ~~~smapBdTxReady &&& smapBdTxReady = 0#16 := by decide
    rw [none, BitVec.and_zero]
  simp [SMapBD.ready, cleared]

/-- Every step keeps the ready descriptors among the frames not yet reaped.

Proof: by the moves. `SMap_Send` makes the descriptor behind those in flight ready, and a
turn of `HandleTXInt` takes away the first one, which is not ready any more. -/
theorem moves_readyInside {state next : State} {action : Action} (inside : ReadyInside state)
    (indexed : Indexed state) (moves : Moves state action next) : ReadyInside next := by
  have start := indexed.start
  cases moves with
  | refused | handleTXInt | unfinished | reaped | link => exact inside
  | @sent pPacket gnp here accepted =>
    have after := accepted.append
    intro index bound ready
    simp only [after, SMapCB.append, List.length_append, List.length_singleton] at ready ⊢
    by_cases last : index = state.smap.tx.u8IndexEnd
    · exact ⟨state.unreaped.length, Nat.lt_succ_self _, by rw [last, indexed.ahead]⟩
    · rw [Function.update_of_ne last] at ready
      obtain ⟨offset, earlier, same⟩ := inside index bound ready
      exact ⟨offset, Nat.lt_succ_of_lt earlier, same⟩
  | reap here reaps =>
    intro index bound ready
    simp only [State.setTx, SMapCB.reap, List.length_tail, smapBdNext_eq start] at ready ⊢
    by_cases first : index = state.smap.tx.u8IndexStart
    · subst first
      rw [Function.update_self] at ready
      simp [SMapBD.ready] at ready
    · rw [Function.update_of_ne first] at ready
      obtain ⟨offset, earlier, same⟩ := inside index bound ready
      have later : offset ≠ 0 := by
        rintro rfl
        rw [Nat.add_zero, Nat.mod_eq_of_lt start] at same
        exact first same.symm
      refine ⟨offset - 1, by omega, ?_⟩
      simp only [smapBdMaxEntry] at same ⊢
      omega
  | complete which ctrlStat =>
    intro index bound ready
    simp only [State.setTx] at ready ⊢
    by_cases completed : index = which % smapBdMaxEntry
    · rw [completed, Function.update_self, completed_not_ready] at ready
      simp at ready
    · rw [Function.update_of_ne completed] at ready
      exact inside index bound ready

/-- The descriptor behind the last frame is free while the ring is not full. -/
theorem end_not_ready {state : State} (inside : ReadyInside state) (indexed : Indexed state)
    (notFull : state.unreaped.length < smapBdMaxEntry) :
    (state.smap.tx.pBD state.smap.tx.u8IndexEnd).ready = false := by
  by_contra ready
  obtain ⟨offset, earlier, same⟩ := inside _ indexed.end_lt (by simpa using ready)
  rw [indexed.ahead] at same
  exact Ring.slots_ne (by omega) (by omega) notFull same

/-- What the driver relies on: no descriptor still with the hardware is
overwritten, and equal indices mean that no frame is sent and not yet reaped. -/
structure RingSafe (state : State) : Prop where
  overwrites : ∀ pPacket gnp, state.txInt = none → Accepts state.smap pPacket gnp →
    (state.smap.tx.pBD state.smap.tx.u8IndexEnd).ready = false
  empty : state.smap.tx.u8IndexStart = state.smap.tx.u8IndexEnd ↔ state.unreaped = []

/-- An accepted frame does not take the last free descriptor. -/
def LeavesDescriptor (state : State) (action : Action) : Prop :=
  ∀ pPacket gnp, action = .send pPacket gnp → Accepts state.smap pPacket gnp →
    smapBdNext state.smap.tx.u8IndexEnd ≠ state.smap.tx.u8IndexStart

/-- The invariant of a ring that always keeps a free descriptor. -/
structure RingKept (state : State) : Prop where
  indexed : Indexed state
  inside : ReadyInside state
  notFull : state.unreaped.length < smapBdMaxEntry

/-- The step lemma: an action that leaves a descriptor unused keeps the ring's invariant. -/
theorem moves_ringKept {state next : State} {action : Action} (kept : RingKept state)
    (leaves : LeavesDescriptor state action) (moves : Moves state action next) : RingKept next := by
  obtain ⟨indexed, inside, notFull⟩ := kept
  refine ⟨moves_indexed indexed moves, moves_readyInside inside indexed moves, ?_⟩
  cases moves with
  | refused | handleTXInt | unfinished | reaped | complete | link => exact notFull
  | sent here accepted =>
    have free := leaves _ _ rfl accepted
    rw [smapBdNext_eq indexed.end_lt, indexed.ahead] at free
    have start := indexed.start
    simp only [List.length_append, List.length_singleton, smapBdMaxEntry] at *
    omega
  | reap =>
    simp only [List.length_tail]
    omega

/-- The invariant gives the safety of the ring. -/
theorem RingKept.safe {state : State} (kept : RingKept state) : RingSafe state := by
  obtain ⟨indexed, inside, notFull⟩ := kept
  exact ⟨fun _ _ _ _ => end_not_ready inside indexed notFull, indexed.empty_iff notFull⟩

/-- The descriptor ring is safe throughout a run exactly when no accepted frame
takes the last free descriptor.

Proof: the invariant is that the indices enclose the frames in flight and that one
descriptor is free. A send that takes the last one makes the indices equal, and then the
ring looks empty with frames in it. -/
theorem ring_safe_iff {steps : List (State × Action)} {state : State} (run : TxRun steps state) :
    Runs.Throughout State.step Initialised (fun _ state => RingSafe state) steps ↔
      Runs.Meets LeavesDescriptor steps := by
  refine Runs.throughout_iff (fun _ _ => True) (fun _ state => RingKept state) ?_ ?_ ?_ ?_ run
    fun _ _ => trivial
  · intro fresh initial
    refine ⟨initialised_indexed initial, initialised_readyInside initial, ?_⟩
    simp [initial.unreaped, smapBdMaxEntry]
  · intro _ before action next kept _ leaves taken
    exact moves_ringKept kept leaves (step_moves taken)
  · intro _ before kept
    exact kept.safe
  · intro _ before action next kept _ refused taken safe
    simp only [LeavesDescriptor, not_forall, not_not] at refused
    obtain ⟨pPacket, gnp, rfl, accepted, full⟩ := refused
    cases step_moves taken with
    | refused here no => exact no accepted
    | sent here _ =>
      have after := accepted.append
      have same : (sMapSend before.smap pPacket gnp).2.tx.u8IndexStart =
          (sMapSend before.smap pPacket gnp).2.tx.u8IndexEnd := by
        rw [after]
        exact full.symm
      have empty := safe.empty.mp same
      simp at empty

/-- A packet in one aligned buffer, all its bytes alike. -/
def plainPacket (totLen : Nat) (byte : UInt8) : PBuf := ⟨totLen, ⟨fun _ => byte, totLen, 0⟩, []⟩

/-- The driver with a valid link and nothing sent. -/
def linkedDriver : State where
  smap := ⟨txBdInit, fun _ => 0, ⟨fun _ => 0, 0⟩, true⟩
  txInt := none
  unreaped := []

/-- The driver of the witnesses is initialised, with its link up. -/
theorem linkedDriver_initialised : Initialised linkedDriver := ⟨rfl, rfl, rfl⟩

/-- Sends of the same packet, the EMAC ready at once. -/
def sendActions (count totLen : Nat) : List Action :=
  List.replicate count (.send (plainPacket totLen 1) fun _ => false)

/-- An accepted frame leaves a free descriptor, as far as the indices tell. -/
def leavesDescriptor (state : State) : Bool :=
  smapBdNext state.smap.tx.u8IndexEnd != state.smap.tx.u8IndexStart

/-- Two frames sent, the first of them finished and reaped. -/
theorem ring_safe_two_frames : ∃ steps state, TxRun steps state ∧ state.unreaped = [60] ∧
    Runs.Throughout State.step Initialised (fun _ state => RingSafe state) steps := by
  obtain ⟨steps, state, run, sent, leaves⟩ := Runs.run_of_performed State.step
    (fun steps state => state.unreaped = [60] ∧ ∀ entry ∈ steps, leavesDescriptor entry.1 = true)
    linkedDriver_initialised (sendActions 2 60 ++ [.complete 0 0, .handleTXInt, .txIntTurn])
    (by decide +kernel)
  refine ⟨steps, state, run, sent, (ring_safe_iff run).mpr ?_⟩
  rintro entry member pPacket gnp _ _
  simpa [leavesDescriptor] using leaves entry member

/-- Sixty-four frames of 54 bytes: the ring is full and its indices are equal. -/
theorem ring_overrun : ∃ steps state, TxRun steps state ∧ ¬ RingSafe state := by
  obtain ⟨steps, state, run, same, sent⟩ := Runs.run_of_performed State.step
    (fun _ state => state.smap.tx.u8IndexStart = state.smap.tx.u8IndexEnd ∧
      state.unreaped.length = 64)
    linkedDriver_initialised (sendActions 64 54) (by decide +kernel)
  refine ⟨steps, state, run, ?_⟩
  intro safe
  rw [safe.empty.mp same] at sent
  simp at sent

end Ps2Eth.SmapLinux
