import Ps2Eth.SmapLinux.TxDescriptors

/-!
# The transmit memory of the smap-linux driver

`ComputeFreeSize` tells the free bytes from the start and the end pointer. It is
right while the bytes in use lie in one piece. Once they run past the end of the
memory it returns the bytes in use instead of the free ones, and when they fill
the memory exactly it returns the whole memory: `SMap_Send` then copies into the
memory of frames still with the hardware.
-/

namespace Ps2Eth.SmapLinux

open DataPort (Apart Covers Laid total)

/-- The transmit memory taken by the frames sent and not yet reaped. -/
def State.bytesInUse (state : State) : Nat := (state.unreaped.map roundUp).sum

/-- The memory of a descriptor's frame: its start and its size. -/
def SMapBD.region (bd : SMapBD) : Nat × Nat := (bd.pointer, roundUp bd.length)

/-- The descriptors of the frames sent and not yet reaped, oldest first. -/
def State.frames (state : State) : List SMapBD :=
  Ring.window state.smap.tx.pBD smapBdMaxEntry state.smap.tx.u8IndexStart state.unreaped.length

/-- With the end pointer behind the bytes in use, the free size is right exactly
when they lie in one piece or are half of the memory. -/
theorem computeFreeSize_iff {cb : SMapCB} {used : Nat} (size : cb.u16Size = smapTxBufSize)
    (start : cb.u16PTRStart < smapTxBufSize)
    (ends : cb.u16PTREnd = (cb.u16PTRStart + used) % smapTxBufSize) (fits : used ≤ smapTxBufSize) :
    computeFreeSize cb + used = smapTxBufSize ↔
      cb.u16PTRStart + used < smapTxBufSize ∨ 2 * used = smapTxBufSize := by
  simp only [computeFreeSize, size, smapTxBufSize] at *
  by_cases past : cb.u16PTREnd < cb.u16PTRStart
  · rw [if_pos past]
    omega
  · rw [if_neg past]
    omega

/-- The memory `SMap_Send` copies a packet to: its start and its size. -/
def SMap.target (smap : SMap) (pPacket : PBuf) : Nat × Nat :=
  (smap.tx.u16PTREnd, roundUp pPacket.totLen)

/-- What the driver relies on while the descriptor ring is not full: the free
size is the memory the frames leave, and no packet is copied into the memory of
a frame still with the hardware. -/
structure MemorySafe (state : State) : Prop where
  free : state.unreaped.length < smapBdMaxEntry →
    computeFreeSize state.smap.tx + state.bytesInUse = smapTxBufSize
  apart : state.unreaped.length < smapBdMaxEntry → ∀ pPacket gnp, state.txInt = none →
    Accepts state.smap pPacket gnp → ∀ index < smapBdMaxEntry,
    (state.smap.tx.pBD index).ready = true →
    Apart smapTxBufSize (state.smap.tx.pBD index).region (state.smap.target pPacket)

/-- The word loop pushes the bytes behind the end pointer. -/
theorem copyToFIFO_push (smap : SMap) (src : Nat → UInt8) (iLen : Nat) :
    copyToFIFO smap src iLen =
      DataPort.Port.push smapTxBufSize { smap.fifo with pointer := smap.tx.u16PTREnd }
        ((List.range (4 * ((iLen + 3) / 4))).map src) := by
  rw [copyToFIFO]
  generalize (iLen + 3) / 4 = words
  induction words with
  | zero => rfl
  | succ words inductionHypothesis =>
    rw [List.range_succ, List.foldl_append, inductionHypothesis, Nat.mul_succ, List.range_add,
      List.map_append, DataPort.push_append, List.foldl_cons, List.foldl_nil,
      List.range'_eq_map_range]

/-- `SMap_Send` writes no memory outside its target. -/
theorem sMapSend_outside {smap : SMap} {pPacket : PBuf} {gnp : Nat → Bool} {address : Nat}
    (ends : smap.tx.u16PTREnd < smapTxBufSize)
    (outside : ¬ Covers smapTxBufSize (smap.target pPacket).1 (smap.target pPacket).2 address) :
    (sMapSend smap pPacket gnp).2.fifo.cells address = smap.fifo.cells address := by
  have copied (src : Nat → UInt8) :
      (copyToFIFO smap src (roundUp pPacket.totLen)).cells address = smap.fifo.cells address := by
    rw [copyToFIFO_push]
    apply DataPort.push_outside _ _ ends
    have words : 4 * ((roundUp pPacket.totLen + 3) / 4) = roundUp pPacket.totLen := by
      have rounded := roundUp_bounds pPacket.totLen
      omega
    rw [List.length_map, List.length_range, words]
    exact outside
  simp only [sMapSend]
  split
  · rfl
  · split
    · rfl
    · split
      · rfl
      · split
        · rfl
        · split
          · exact copied _
          · exact copied _

/-- The frames lie one behind the other from the start pointer to the end
pointer, in one piece or over exactly half of the memory. -/
structure Regular (state : State) : Prop where
  size : state.smap.tx.u16Size = smapTxBufSize
  start : state.smap.tx.u16PTRStart < smapTxBufSize
  ends : state.smap.tx.u16PTREnd =
    (state.smap.tx.u16PTRStart + state.bytesInUse) % smapTxBufSize
  onePiece : state.smap.tx.u16PTRStart + state.bytesInUse < smapTxBufSize ∨
    2 * state.bytesInUse = smapTxBufSize
  lengths : state.frames.map SMapBD.length = state.unreaped
  laid : Laid smapTxBufSize state.smap.tx.u16PTRStart (state.frames.map SMapBD.region)

/-- The bytes in use are the sizes of the regions. -/
theorem Regular.total_eq {state : State} (regular : Regular state) :
    total (state.frames.map SMapBD.region) = state.bytesInUse := by
  rw [State.bytesInUse, ← regular.lengths, total, List.map_map, List.map_map]
  rfl

/-- Frames that are laid one behind the other fit into the transmit memory. -/
theorem Regular.fits {state : State} (regular : Regular state) : state.bytesInUse ≤ smapTxBufSize := by
  have onePiece := regular.onePiece
  omega

/-- In a regular state the free size is right. -/
theorem Regular.free {state : State} (regular : Regular state) :
    computeFreeSize state.smap.tx + state.bytesInUse = smapTxBufSize :=
  (computeFreeSize_iff regular.size regular.start regular.ends regular.fits).mpr regular.onePiece

/-- A ready descriptor belongs to one of the frames. -/
theorem ReadyInside.mem_frames {state : State} (inside : ReadyInside state) {index : Nat}
    (bound : index < smapBdMaxEntry) (ready : (state.smap.tx.pBD index).ready = true) :
    state.smap.tx.pBD index ∈ state.frames := by
  obtain ⟨offset, earlier, same⟩ := inside index bound ready
  exact Ring.mem_window.mpr ⟨offset, earlier, by rw [same]⟩

/-- In a regular state an accepted packet is copied behind all the frames. -/
theorem Regular.apart {state : State} (regular : Regular state) {pPacket : PBuf}
    {gnp : Nat → Bool} (accepts : Accepts state.smap pPacket gnp) {bd : SMapBD}
    (member : bd ∈ state.frames) :
    Apart smapTxBufSize bd.region (state.smap.target pPacket) := by
  intro address covered target
  have used := DataPort.laid_covers regular.laid (List.mem_map_of_mem member) covered
  have behind : state.smap.tx.u16PTREnd % smapTxBufSize =
      (state.smap.tx.u16PTRStart + total (state.frames.map SMapBD.region)) % smapTxBufSize := by
    rw [regular.ends, Nat.mod_mod, regular.total_eq]
  have fits : total (state.frames.map SMapBD.region) + roundUp pPacket.totLen ≤ smapTxBufSize := by
    have free := regular.free
    have room := accepts.free
    rw [regular.total_eq]
    omega
  exact DataPort.apart_behind _ fits address used ((DataPort.covers_congr behind).mp target)

/-- The invariant: regular as long as the descriptor ring is not full. -/
structure MemoryKept (state : State) : Prop where
  indexed : Indexed state
  inside : ReadyInside state
  regular : state.unreaped.length < smapBdMaxEntry → Regular state

/-- The invariant gives the safety of the memory: no frame in flight lies over another. -/
theorem MemoryKept.safe {state : State} (kept : MemoryKept state) : MemorySafe state := by
  constructor
  · intro notFull
    exact (kept.regular notFull).free
  · intro notFull pPacket gnp _ accepts index bound ready
    exact (kept.regular notFull).apart accepts (kept.inside.mem_frames bound ready)

/-- An accepted packet leaves the bytes of the frames still with the hardware as
they were. -/
theorem MemoryKept.keeps_ready {state : State} (kept : MemoryKept state)
    (notFull : state.unreaped.length < smapBdMaxEntry) (here : state.txInt = none)
    {pPacket : PBuf} {gnp : Nat → Bool} (accepts : Accepts state.smap pPacket gnp) {index : Nat}
    (bound : index < smapBdMaxEntry) (ready : (state.smap.tx.pBD index).ready = true) :
    let region := (state.smap.tx.pBD index).region
    Ring.window (sMapSend state.smap pPacket gnp).2.fifo.cells smapTxBufSize region.1 region.2 =
      Ring.window state.smap.fifo.cells smapTxBufSize region.1 region.2 := by
  have ends : state.smap.tx.u16PTREnd < smapTxBufSize := by
    rw [(kept.regular notFull).ends]
    exact Nat.mod_lt _ (by decide)
  apply DataPort.window_eq
  intro address covered
  exact sMapSend_outside ends (kept.safe.apart notFull pPacket gnp here accepts index bound ready
    address covered)

/-- After `SMap_Open` no frame is in flight, and both pointers are equal. -/
theorem initialised_regular {state : State} (initial : Initialised state) : Regular state where
  size := by rw [initial.tx, txBdInit]
  start := by simp [initial.tx, txBdInit, smapTxBufSize]
  ends := by simp [initial.tx, initial.unreaped, txBdInit, State.bytesInUse]
  onePiece := by simp [initial.tx, initial.unreaped, txBdInit, State.bytesInUse, smapTxBufSize]
  lengths := by simp [initial.unreaped, State.frames]
  laid := by simp [initial.unreaped, State.frames, Laid]

/-- The bytes in use after a step do not run past the end of the memory, unless
they are half of it. A step into a full descriptor ring may do what it likes. -/
def StaysInside (state : State) : Action → Prop
  | .send pPacket gnp =>
      Accepts state.smap pPacket gnp → state.unreaped.length + 1 < smapBdMaxEntry →
        state.smap.tx.u16PTRStart + state.bytesInUse + roundUp pPacket.totLen < smapTxBufSize ∨
          2 * (state.bytesInUse + roundUp pPacket.totLen) = smapTxBufSize
  | .txIntTurn =>
      state.txInt ≠ none → state.smap.tx.Reaps → state.unreaped.length < smapBdMaxEntry →
        let oldest := roundUp (state.smap.tx.pBD state.smap.tx.u8IndexStart).length
        state.smap.tx.u16PTRStart + state.bytesInUse < smapTxBufSize ∨
          smapTxBufSize ≤ state.smap.tx.u16PTRStart + oldest ∨
          2 * (state.bytesInUse - oldest) = smapTxBufSize
  | _ => True

/-- Whether a step stays inside the memory is decided from the pointers and the lengths. -/
instance (state : State) (action : Action) : Decidable (StaysInside state action) := by
  cases action <;> simp only [StaysInside] <;> infer_instance

section Sent

variable {state : State} {pPacket : PBuf} {gnp : Nat → Bool}

/-- The state after an accepted packet. -/
def State.sent (state : State) (pPacket : PBuf) (gnp : Nat → Bool) : State :=
  { state with
    smap := (sMapSend state.smap pPacket gnp).2
    unreaped := state.unreaped ++ [pPacket.totLen] }

/-- An accepted frame takes its length, rounded up, from the memory. -/
theorem sent_bytesInUse :
    (state.sent pPacket gnp).bytesInUse = state.bytesInUse + roundUp pPacket.totLen := by
  simp [State.sent, State.bytesInUse]

/-- The end pointer moves on by the bytes that the accepted frame takes, round the end of
the memory. -/
theorem sent_ends (regular : Regular state) (accepts : Accepts state.smap pPacket gnp) :
    (state.sent pPacket gnp).smap.tx.u16PTREnd =
      (state.smap.tx.u16PTRStart + (state.sent pPacket gnp).bytesInUse) % smapTxBufSize := by
  have tx : (state.sent pPacket gnp).smap.tx = state.smap.tx.append pPacket.totLen := accepts.append
  rw [tx, sent_bytesInUse]
  simp only [SMapCB.append]
  rw [regular.ends, Nat.mod_add_mod, Nat.add_assoc]

/-- An accepted packet's descriptor stands behind the others. -/
theorem sent_frames (indexed : Indexed state) (accepts : Accepts state.smap pPacket gnp)
    (notFull : state.unreaped.length < smapBdMaxEntry) :
    (state.sent pPacket gnp).frames = state.frames ++ [⟨smapBdTxReady ||| smapBdTxGenfcs |||
      smapBdTxGenpad, pPacket.totLen, (state.smap.tx.u16PTREnd + smapTxBufBase) % 65536⟩] := by
  have small : pPacket.totLen % 65536 = pPacket.totLen := by
    have size := accepts.size
    simp only [smapTxMaxSize] at size
    omega
  simp only [State.frames, State.sent, accepts.append, SMapCB.append, List.length_append,
    List.length_singleton, indexed.ahead, small]
  exact Ring.window_push _ _ notFull

/-- An accepted frame leaves the frames one behind the other, if it stays inside the
memory or lies exactly half round it. -/
theorem sent_regular (indexed : Indexed state) (regular : Regular state)
    (accepts : Accepts state.smap pPacket gnp) (notFull : state.unreaped.length < smapBdMaxEntry)
    (stays : state.smap.tx.u16PTRStart + state.bytesInUse + roundUp pPacket.totLen < smapTxBufSize ∨
      2 * (state.bytesInUse + roundUp pPacket.totLen) = smapTxBufSize) :
    Regular (state.sent pPacket gnp) := by
  have tx : (state.sent pPacket gnp).smap.tx = state.smap.tx.append pPacket.totLen := accepts.append
  have frames := sent_frames indexed accepts notFull
  constructor
  · rw [tx]
    exact regular.size
  · rw [tx]
    exact regular.start
  · rw [sent_ends regular accepts, tx]
    rfl
  · rw [tx, sent_bytesInUse, ← Nat.add_assoc]
    exact stays
  · rw [frames, List.map_append, regular.lengths]
    rfl
  · rw [frames, List.map_append, tx]
    refine (DataPort.laid_snoc _ _).mpr ⟨regular.laid, ?_⟩
    rw [regular.total_eq]
    simp only [SMapBD.region, SMapCB.append, regular.ends, smapTxBufSize, smapTxBufBase]
    omega

end Sent

section Reaped

variable {state : State}

/-- The state after a frame is reaped. -/
def State.reaped (state : State) (txInt : Option Bool) : State :=
  { state.setTx state.smap.tx.reap with txInt := txInt, unreaped := state.unreaped.tail }

/-- An active range starts with the descriptor of the oldest frame. -/
theorem Indexed.frames_cons (indexed : Indexed state)
    (active : state.smap.tx.u8IndexStart ≠ state.smap.tx.u8IndexEnd) :
    state.frames = state.smap.tx.pBD state.smap.tx.u8IndexStart ::
      Ring.window state.smap.tx.pBD smapBdMaxEntry (state.smap.tx.u8IndexStart + 1)
        state.unreaped.tail.length := by
  have some := indexed.unreaped_of_active active
  have counted : state.unreaped.length = state.unreaped.tail.length + 1 := by
    cases frames : state.unreaped with
    | nil => simp [frames] at some
    | cons oldest rest => rfl
  rw [State.frames, counted, Ring.window_pop, Nat.mod_eq_of_lt indexed.start]

/-- Clearing the oldest descriptor leaves the others as they were. -/
theorem reaped_frames (indexed : Indexed state) (notFull : state.unreaped.length < smapBdMaxEntry)
    (txInt : Option Bool) :
    (state.reaped txInt).frames = Ring.window state.smap.tx.pBD smapBdMaxEntry
      (state.smap.tx.u8IndexStart + 1) state.unreaped.tail.length := by
  have start := indexed.start
  have behind : (state.smap.tx.u8IndexStart + 1 + (smapBdMaxEntry - 1)) % smapBdMaxEntry =
      state.smap.tx.u8IndexStart := by
    simp only [smapBdMaxEntry] at start ⊢
    omega
  have outside : state.unreaped.tail.length ≤ smapBdMaxEntry - 1 := by
    rw [List.length_tail]
    omega
  have kept := @Ring.window_update_outside _ state.smap.tx.pBD _ (state.smap.tx.u8IndexStart + 1) _ _
    ⟨0, 0, 0⟩ outside (by decide : smapBdMaxEntry - 1 < smapBdMaxEntry)
  rw [behind] at kept
  simp only [State.frames, State.reaped, State.setTx, SMapCB.reap, smapBdNext_eq start]
  rw [Ring.window_congr (Nat.mod_mod _ _)]
  exact kept

/-- Reaping moves the start pointer past the oldest frame. -/
theorem reaped_start (state : State) (txInt : Option Bool) :
    (state.reaped txInt).smap.tx.u16PTRStart = (state.smap.tx.u16PTRStart +
      roundUp (state.smap.tx.pBD state.smap.tx.u8IndexStart).length) % smapTxBufSize := rfl

/-- The oldest frame is the one whose descriptor is cleared. -/
theorem Regular.unreaped_cons (regular : Regular state) (indexed : Indexed state)
    (active : state.smap.tx.u8IndexStart ≠ state.smap.tx.u8IndexEnd) :
    state.unreaped =
      (state.smap.tx.pBD state.smap.tx.u8IndexStart).length :: state.unreaped.tail := by
  have lengths := regular.lengths
  rw [indexed.frames_cons active, List.map_cons] at lengths
  rw [← lengths]
  rfl

/-- The bytes in use are those of the oldest frame and of all frames behind it. -/
theorem Regular.bytesInUse_cons (regular : Regular state) (indexed : Indexed state)
    (active : state.smap.tx.u8IndexStart ≠ state.smap.tx.u8IndexEnd) (txInt : Option Bool) :
    state.bytesInUse = roundUp (state.smap.tx.pBD state.smap.tx.u8IndexStart).length +
      (state.reaped txInt).bytesInUse := by
  rw [State.bytesInUse, regular.unreaped_cons indexed active, List.map_cons, List.sum_cons]
  rfl

/-- Reaping the oldest frame moves the start pointer, and the end pointer is still the
start and the bytes in use. -/
theorem reaped_ends (regular : Regular state) (indexed : Indexed state)
    (active : state.smap.tx.u8IndexStart ≠ state.smap.tx.u8IndexEnd) (txInt : Option Bool) :
    (state.reaped txInt).smap.tx.u16PTREnd = ((state.reaped txInt).smap.tx.u16PTRStart +
      (state.reaped txInt).bytesInUse) % smapTxBufSize := by
  rw [reaped_start, Nat.mod_add_mod, Nat.add_assoc, ← regular.bytesInUse_cons indexed active txInt]
  exact regular.ends

/-- Reaping leaves the frames one behind the other, under the condition on what remains. -/
theorem reaped_regular (indexed : Indexed state) (regular : Regular state)
    (notFull : state.unreaped.length < smapBdMaxEntry)
    (active : state.smap.tx.u8IndexStart ≠ state.smap.tx.u8IndexEnd) (txInt : Option Bool)
    (stays : state.smap.tx.u16PTRStart + state.bytesInUse < smapTxBufSize ∨
      smapTxBufSize ≤ state.smap.tx.u16PTRStart +
        roundUp (state.smap.tx.pBD state.smap.tx.u8IndexStart).length ∨
      2 * (state.bytesInUse - roundUp (state.smap.tx.pBD state.smap.tx.u8IndexStart).length) =
        smapTxBufSize) :
    Regular (state.reaped txInt) := by
  have split := regular.bytesInUse_cons indexed active txInt
  have onePiece := regular.onePiece
  have start := regular.start
  have lengths := regular.lengths
  have laid := regular.laid
  rw [indexed.frames_cons active, List.map_cons] at lengths laid
  constructor
  · exact regular.size
  · exact Nat.mod_lt _ (by decide)
  · exact reaped_ends regular indexed active txInt
  · rw [reaped_start]
    simp only [smapTxBufSize] at *
    omega
  · rw [reaped_frames indexed notFull txInt]
    exact congrArg List.tail lengths
  · rw [reaped_frames indexed notFull txInt]
    exact (DataPort.laid_congr (Nat.mod_mod _ _) _).mpr laid.2

end Reaped

/-- A completion keeps the lengths and the places of the frames. -/
theorem complete_regular {state : State} (regular : Regular state) (index : Nat)
    (ctrlStat : BitVec 16) : Regular (state.setTx { state.smap.tx with
      pBD := Function.update state.smap.tx.pBD (index % smapBdMaxEntry)
        { state.smap.tx.pBD (index % smapBdMaxEntry) with
          ctrlStat := ctrlStat &&& ~~~smapBdTxReady } }) := by
  refine ⟨regular.size, regular.start, regular.ends, regular.onePiece, ?_, ?_⟩
  · have same := Ring.map_window_update SMapBD.length state.smap.tx.pBD smapBdMaxEntry
      state.smap.tx.u8IndexStart state.unreaped.length (index % smapBdMaxEntry)
      { state.smap.tx.pBD (index % smapBdMaxEntry) with ctrlStat := ctrlStat &&& ~~~smapBdTxReady } rfl
    exact same.trans regular.lengths
  · have same := Ring.map_window_update SMapBD.region state.smap.tx.pBD smapBdMaxEntry
      state.smap.tx.u8IndexStart state.unreaped.length (index % smapBdMaxEntry)
      { state.smap.tx.pBD (index % smapBdMaxEntry) with ctrlStat := ctrlStat &&& ~~~smapBdTxReady } rfl
    have laid := regular.laid
    rw [State.frames, ← same] at laid
    exact laid

/-- With equal indices `HandleTXInt` sets the start pointer to where it already is. -/
theorem Regular.emptied {state : State} (regular : Regular state) (indexed : Indexed state)
    (notFull : state.unreaped.length < smapBdMaxEntry)
    (same : state.smap.tx.u8IndexStart = state.smap.tx.u8IndexEnd) :
    state.smap.tx.u16PTREnd = state.smap.tx.u16PTRStart := by
  have empty := (indexed.empty_iff notFull).mp same
  rw [regular.ends, State.bytesInUse, empty]
  exact Nat.mod_eq_of_lt regular.start

/-- A full descriptor ring never reads as less than full again. -/
theorem moves_full {state next : State} {action : Action} (indexed : Indexed state)
    (moves : Moves state action next) (full : smapBdMaxEntry ≤ state.unreaped.length) :
    smapBdMaxEntry ≤ next.unreaped.length := by
  cases moves with
  | refused | handleTXInt | unfinished | reaped | complete | link => exact full
  | sent here accepted =>
    rw [List.length_append]
    omega
  | reap here reaps =>
    have some := indexed.unreaped_of_active reaps.1
    simp only [List.length_tail, smapBdMaxEntry] at *
    omega

/-- Every step that stays inside keeps the invariant. -/
theorem moves_memoryKept {state next : State} {action : Action} (kept : MemoryKept state)
    (stays : StaysInside state action) (moves : Moves state action next) : MemoryKept next := by
  obtain ⟨indexed, inside, regular⟩ := kept
  refine ⟨moves_indexed indexed moves, moves_readyInside inside indexed moves, ?_⟩
  intro notFull
  have before : state.unreaped.length < smapBdMaxEntry := by
    by_contra full
    have later := moves_full indexed moves (by omega)
    omega
  have was := regular before
  cases moves with
  | refused => exact was
  | handleTXInt | unfinished | link => exact ⟨was.size, was.start, was.ends, was.onePiece,
      was.lengths, was.laid⟩
  | sent here accepted =>
    have room : state.unreaped.length + 1 < smapBdMaxEntry := by simpa using notFull
    exact sent_regular indexed was accepted before (stays accepted room)
  | reap here reaps =>
    have active : state.txInt ≠ none := by simp [here]
    exact reaped_regular indexed was before reaps.1 _ (stays active reaps before)
  | reaped here same =>
    have unmoved : { state.smap.tx with u16PTRStart := state.smap.tx.u16PTREnd } = state.smap.tx := by
      rw [was.emptied indexed before same]
    simp only [State.setTx, unmoved]
    exact ⟨was.size, was.start, was.ends, was.onePiece, was.lengths, was.laid⟩
  | complete index ctrlStat => exact complete_regular was index ctrlStat

/-- An accepted packet past the end of the memory spoils the free size. -/
theorem sent_unsafe {state : State} {pPacket : PBuf} {gnp : Nat → Bool} (regular : Regular state)
    (accepts : Accepts state.smap pPacket gnp)
    (room : state.unreaped.length + 1 < smapBdMaxEntry)
    (outside : ¬ (state.smap.tx.u16PTRStart + state.bytesInUse + roundUp pPacket.totLen <
      smapTxBufSize ∨ 2 * (state.bytesInUse + roundUp pPacket.totLen) = smapTxBufSize)) :
    ¬ MemorySafe (state.sent pPacket gnp) := by
  intro safe
  have tx : (state.sent pPacket gnp).smap.tx = state.smap.tx.append pPacket.totLen := accepts.append
  have size : (state.sent pPacket gnp).smap.tx.u16Size = smapTxBufSize := by
    rw [tx]
    exact regular.size
  have start : (state.sent pPacket gnp).smap.tx.u16PTRStart = state.smap.tx.u16PTRStart := by
    rw [tx]
    rfl
  have fits : (state.sent pPacket gnp).bytesInUse ≤ smapTxBufSize := by
    have free := regular.free
    have room := accepts.free
    rw [sent_bytesInUse]
    omega
  have right := (computeFreeSize_iff size (start ▸ regular.start)
    (start ▸ sent_ends regular accepts) fits).mp (safe.free (by simpa [State.sent] using room))
  rw [start, sent_bytesInUse, ← Nat.add_assoc] at right
  exact outside right

/-- Reaping a frame while the others run past the end spoils the free size. -/
theorem reaped_unsafe {state : State} (indexed : Indexed state) (regular : Regular state)
    (notFull : state.unreaped.length < smapBdMaxEntry)
    (active : state.smap.tx.u8IndexStart ≠ state.smap.tx.u8IndexEnd) (txInt : Option Bool)
    (outside : ¬ (state.smap.tx.u16PTRStart + state.bytesInUse < smapTxBufSize ∨
      smapTxBufSize ≤ state.smap.tx.u16PTRStart +
        roundUp (state.smap.tx.pBD state.smap.tx.u8IndexStart).length ∨
      2 * (state.bytesInUse - roundUp (state.smap.tx.pBD state.smap.tx.u8IndexStart).length) =
        smapTxBufSize)) :
    ¬ MemorySafe (state.reaped txInt) := by
  intro safe
  have shorter : (state.reaped txInt).unreaped.length < smapBdMaxEntry := by
    simp only [State.reaped, List.length_tail]
    omega
  have split := regular.bytesInUse_cons indexed active txInt
  have onePiece := regular.onePiece
  have start := regular.start
  have fits : (state.reaped txInt).bytesInUse ≤ smapTxBufSize := by
    have before := regular.fits
    omega
  have size : (state.reaped txInt).smap.tx.u16Size = smapTxBufSize := regular.size
  have inside : (state.reaped txInt).smap.tx.u16PTRStart < smapTxBufSize := Nat.mod_lt _ (by decide)
  have right := (computeFreeSize_iff size inside (reaped_ends regular indexed active txInt) fits).mp
    (safe.free shorter)
  rw [reaped_start] at right
  simp only [smapTxBufSize] at *
  omega

/-- The transmit memory is safe throughout a run exactly when no step leaves the
bytes in use running past the end of the memory.

Proof: the invariant is that frames are laid one behind the other while the ring is not
full. A step that stays inside the memory keeps it. A step that does not is a send or a
turn of `HandleTXInt`, and for each of them the bytes in use, counted as `ComputeFreeSize`
counts them, let a frame over another. -/
theorem memory_safe_iff {steps : List (State × Action)} {state : State} (run : TxRun steps state) :
    Runs.Throughout State.step Initialised (fun _ state => MemorySafe state) steps ↔
      Runs.Meets StaysInside steps := by
  refine Runs.throughout_iff (fun _ _ => True) (fun _ state => MemoryKept state) ?_ ?_ ?_ ?_ run
    fun _ _ => trivial
  · intro fresh initial
    exact ⟨initialised_indexed initial, initialised_readyInside initial,
      fun _ => initialised_regular initial⟩
  · intro _ before action next kept _ stays taken
    exact moves_memoryKept kept stays (step_moves taken)
  · intro _ before kept
    exact kept.safe
  · rintro _ before action next ⟨indexed, inside, regular⟩ _ leaves taken
    cases step_moves taken with
    | refused here refused => exact absurd (fun accepted => absurd accepted refused) leaves
    | handleTXInt | complete | link => exact absurd trivial leaves
    | sent here accepted =>
      simp only [StaysInside, Classical.not_imp] at leaves
      obtain ⟨_, room, outside⟩ := leaves
      exact sent_unsafe (regular (by omega)) accepted room outside
    | reap here reaps =>
      simp only [StaysInside, Classical.not_imp] at leaves
      obtain ⟨_, _, notFull, outside⟩ := leaves
      exact reaped_unsafe indexed (regular notFull) notFull reaps.1 _ outside
    | unfinished here ready =>
      simp only [StaysInside, Classical.not_imp] at leaves
      exact absurd leaves.2.1.2 (by simp [ready])
    | reaped here same =>
      simp only [StaysInside, Classical.not_imp] at leaves
      exact absurd same leaves.2.1.1

/-- Two full frames sent, the first of them finished and reaped. -/
theorem memory_safe_two_frames : ∃ steps state, TxRun steps state ∧ state.unreaped = [1514] ∧
    Runs.Throughout State.step Initialised (fun _ state => MemorySafe state) steps := by
  obtain ⟨steps, state, run, sent, stays⟩ := Runs.run_of_performed State.step
    (fun steps state => state.unreaped = [1514] ∧ ∀ entry ∈ steps, StaysInside entry.1 entry.2)
    linkedDriver_initialised (sendActions 2 1514 ++ [.complete 0 0, .handleTXInt, .txIntTurn])
    (by decide +kernel)
  exact ⟨steps, state, run, sent, (memory_safe_iff run).mpr stays⟩

/-- Three full frames sent, the first of them reaped: 1064 bytes are free, and
the free size reads 3032. -/
theorem memory_overrun : ∃ steps state, TxRun steps state ∧ ¬ MemorySafe state := by
  obtain ⟨steps, state, run, sent, reads⟩ := Runs.run_of_performed State.step
    (fun _ state => state.unreaped = [1514, 1514] ∧ computeFreeSize state.smap.tx = 3032)
    linkedDriver_initialised (sendActions 2 1514 ++ [.complete 0 0, .handleTXInt, .txIntTurn,
      .txIntTurn] ++ sendActions 1 1514) (by decide +kernel)
  refine ⟨steps, state, run, ?_⟩
  intro safe
  have free := safe.free (by simp [sent, smapBdMaxEntry])
  simp [sent, reads, State.bytesInUse, roundUp, smapTxBufSize] at free

end Ps2Eth.SmapLinux
