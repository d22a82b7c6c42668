import Ps2Eth.Lib.Service
import Ps2Eth.SmapLinux.SendPaths

/-!
# The frames in the transmit memory of the smap-linux driver

`SMap_Send` copies a frame behind those in the transmit memory, and `HandleTXInt` takes
the descriptors back in order. As long as the frames that are accepted leave a descriptor
free and fit the memory that the others leave, the frames in flight are a queue that the
hardware's reports serve, and their bytes stand in the memory as the pbufs held them.

The bytes in use may run over the end of the memory. `ComputeFreeSize` is wrong then, but
it is so on the safe side while they are at most half of it.
-/

namespace Ps2Eth.SmapLinux

open DataPort (Covers Laid total)

/-- The bytes of a descriptor's frame in the transmit memory. -/
def State.frameOf (state : State) (bd : SMapBD) : List UInt8 :=
  Ring.window state.smap.fifo.cells smapTxBufSize bd.pointer bd.length

/-- The frames in flight, oldest first. -/
def State.inFlight (state : State) : List (List UInt8) := state.frames.map state.frameOf

/-- The frame that a step sends. -/
def framesSent (state : State) : Action → List (List UInt8)
  | .send pPacket gnp => if Accepts state.smap pPacket gnp then [pPacket.bytes] else []
  | _ => []

/-- The status with which a step takes a descriptor back. -/
def statusTaken (state : State) : Action → List (BitVec 16)
  | .txIntTurn =>
      if state.txInt ≠ none ∧ state.smap.tx.Reaps then
        [(state.smap.tx.pBD state.smap.tx.u8IndexStart).ctrlStat]
      else []
  | _ => []

/-- What a packet that is accepted needs: as many bytes as it says, a descriptor besides
its own, and memory that no frame in flight has. -/
structure HasRoom (state : State) (pPacket : PBuf) : Prop where
  whole : pPacket.Whole
  descriptor : state.unreaped.length + 1 < smapBdMaxEntry
  memory : state.bytesInUse + roundUp pPacket.totLen ≤ smapTxBufSize

/-- Whether there is room for a packet is decided by counting descriptors and bytes. -/
instance (state : State) (pPacket : PBuf) : Decidable (HasRoom state pPacket) :=
  decidable_of_iff (pPacket.totLen = lensOf pPacket.segments ∧
      state.unreaped.length + 1 < smapBdMaxEntry ∧
      state.bytesInUse + roundUp pPacket.totLen ≤ smapTxBufSize)
    ⟨fun all => ⟨all.1, all.2.1, all.2.2⟩, fun room => ⟨room.whole, room.descriptor, room.memory⟩⟩

/-- A packet that a step sends has room. -/
def Roomy (state : State) : Action → Prop
  | .send pPacket gnp => Accepts state.smap pPacket gnp → HasRoom state pPacket
  | _ => True

/-- Whether a step finds room is decided in the same way; only sends need it. -/
instance (state : State) (action : Action) : Decidable (Roomy state action) :=
  match action with
  | .send pPacket gnp =>
      inferInstanceAs (Decidable (Accepts state.smap pPacket gnp → HasRoom state pPacket))
  | .handleTXInt | .txIntTurn | .complete _ _ | .link _ => isTrue trivial

/-- The frames in flight lie one behind the other from the start pointer to the end
pointer, all of them with a descriptor of their own. -/
structure Placed (state : State) : Prop where
  indexed : Indexed state
  notFull : state.unreaped.length < smapBdMaxEntry
  start : state.smap.tx.u16PTRStart < smapTxBufSize
  ends : state.smap.tx.u16PTREnd = (state.smap.tx.u16PTRStart + state.bytesInUse) % smapTxBufSize
  fits : state.bytesInUse ≤ smapTxBufSize
  lengths : state.frames.map SMapBD.length = state.unreaped
  laid : Laid smapTxBufSize state.smap.tx.u16PTRStart (state.frames.map SMapBD.region)

/-- After `SMap_Open` no frame has to be placed. -/
theorem initialised_placed {state : State} (initial : Initialised state) : Placed state := by
  have regular := initialised_regular initial
  constructor
  · exact initialised_indexed initial
  · simp [initial.unreaped, smapBdMaxEntry]
  · exact regular.start
  · exact regular.ends
  · exact regular.fits
  · exact regular.lengths
  · exact regular.laid

section Placed

variable {state : State} (placed : Placed state)

include placed

/-- The end pointer stays inside the transmit memory. -/
theorem Placed.end_lt : state.smap.tx.u16PTREnd < smapTxBufSize := by
  rw [placed.ends]
  exact Nat.mod_lt _ (by decide)

/-- The bytes in use are the sizes of the regions. -/
theorem Placed.total_eq : total (state.frames.map SMapBD.region) = state.bytesInUse := by
  rw [State.bytesInUse, ← placed.lengths, total, List.map_map, List.map_map]
  rfl

section Sent

variable {pPacket : PBuf} {gnp : Nat → Bool} (accepts : Accepts state.smap pPacket gnp)
  (room : HasRoom state pPacket)

include room

/-- No byte of a frame in flight is one that a packet with room is copied to. -/
theorem Placed.sent_frameOf {bd : SMapBD} (member : bd ∈ state.frames) :
    (state.sent pPacket gnp).frameOf bd = state.frameOf bd := by
  have behind : state.smap.tx.u16PTREnd % smapTxBufSize =
      (state.smap.tx.u16PTRStart + total (state.frames.map SMapBD.region)) % smapTxBufSize := by
    rw [placed.ends, Nat.mod_mod, placed.total_eq]
  have fits : total (state.frames.map SMapBD.region) + roundUp pPacket.totLen ≤ smapTxBufSize := by
    rw [placed.total_eq]
    exact room.memory
  apply DataPort.window_eq
  rintro address ⟨offset, before, same⟩
  have region : Covers smapTxBufSize bd.region.1 bd.region.2 address :=
    ⟨offset, Nat.lt_of_lt_of_le before (roundUp_bounds bd.length).1, same⟩
  have used := DataPort.laid_covers placed.laid (List.mem_map_of_mem member) region
  refine sMapSend_outside placed.end_lt fun target => ?_
  exact DataPort.apart_behind _ fits address used ((DataPort.covers_congr behind).mp target)

include accepts

/-- The bytes of the packet stand behind the others. -/
theorem Placed.sent_inFlight :
    (state.sent pPacket gnp).inFlight = state.inFlight ++ [pPacket.bytes] := by
  have place : (state.smap.tx.u16PTREnd + smapTxBufBase) % 65536 % smapTxBufSize =
      state.smap.tx.u16PTREnd % smapTxBufSize := by
    simp only [smapTxBufBase, smapTxBufSize]
    omega
  have bytes : Ring.window (sMapSend state.smap pPacket gnp).2.fifo.cells smapTxBufSize
      ((state.smap.tx.u16PTREnd + smapTxBufBase) % 65536) pPacket.totLen = pPacket.bytes := by
    rw [Ring.window_congr place]
    exact accepts.window placed.end_lt room.whole
  have early : state.frames.map (state.sent pPacket gnp).frameOf = state.inFlight :=
    List.map_congr_left fun bd member => placed.sent_frameOf room member
  rw [State.inFlight, sent_frames placed.indexed accepts placed.notFull, List.map_append, early]
  exact congrArg (fun frame => state.inFlight ++ [frame]) bytes

/-- An accepted frame is placed at the old end pointer, and the frames before it stay
where they are. -/
theorem Placed.sent (indexed : Indexed (state.sent pPacket gnp)) :
    Placed (state.sent pPacket gnp) := by
  have tx : (state.sent pPacket gnp).smap.tx = state.smap.tx.append pPacket.totLen := accepts.append
  have frames := sent_frames placed.indexed accepts placed.notFull
  constructor
  · exact indexed
  · have descriptor := room.descriptor
    simpa [State.sent] using descriptor
  · rw [tx]
    exact placed.start
  · rw [tx, sent_bytesInUse]
    simp only [SMapCB.append]
    rw [placed.ends, Nat.mod_add_mod, Nat.add_assoc]
  · rw [sent_bytesInUse]
    exact room.memory
  · rw [frames, List.map_append, placed.lengths]
    rfl
  · rw [frames, List.map_append, tx]
    refine (DataPort.laid_snoc _ _).mpr ⟨placed.laid, ?_⟩
    rw [placed.total_eq]
    simp only [SMapBD.region, SMapCB.append, placed.ends, smapTxBufSize, smapTxBufBase]
    omega

end Sent

section Reaped

variable (active : state.smap.tx.u8IndexStart ≠ state.smap.tx.u8IndexEnd) (txInt : Option Bool)

include active

/-- The oldest frame leaves the others as they were. -/
theorem Placed.reaped_inFlight :
    state.inFlight = state.frameOf (state.smap.tx.pBD state.smap.tx.u8IndexStart) ::
      (state.reaped txInt).inFlight := by
  have memory : (state.reaped txInt).frameOf = state.frameOf := rfl
  rw [State.inFlight, State.inFlight, placed.indexed.frames_cons active,
    reaped_frames placed.indexed placed.notFull txInt, List.map_cons, memory]

/-- The bytes in use are those of the oldest frame and of all frames behind it. -/
theorem Placed.bytesInUse_cons :
    state.bytesInUse = roundUp (state.smap.tx.pBD state.smap.tx.u8IndexStart).length +
      (state.reaped txInt).bytesInUse := by
  have lengths := placed.lengths
  rw [placed.indexed.frames_cons active, List.map_cons] at lengths
  rw [State.bytesInUse, State.bytesInUse, State.reaped, ← lengths]
  rfl

/-- Reaping takes the oldest frame away and leaves the others in place. -/
theorem Placed.reaped (indexed : Indexed (state.reaped txInt)) : Placed (state.reaped txInt) := by
  have split := placed.bytesInUse_cons active txInt
  have lengths := placed.lengths
  have laid := placed.laid
  rw [placed.indexed.frames_cons active, List.map_cons] at lengths laid
  have frames := reaped_frames placed.indexed placed.notFull txInt
  constructor
  · exact indexed
  · have notFull := placed.notFull
    simp only [State.reaped, List.length_tail]
    omega
  · exact Nat.mod_lt _ (by decide)
  · calc
      (state.reaped txInt).smap.tx.u16PTREnd = state.smap.tx.u16PTREnd := rfl
      _ = (state.smap.tx.u16PTRStart + state.bytesInUse) % smapTxBufSize := placed.ends
      _ = _ := by rw [reaped_start, Nat.mod_add_mod, split, Nat.add_assoc]
  · have fits := placed.fits
    omega
  · rw [frames]
    exact congrArg List.tail lengths
  · rw [frames]
    exact (DataPort.laid_congr (Nat.mod_mod _ _) _).mpr laid.2

end Reaped

/-- With equal indices nothing is in flight, and the pointers are equal. -/
theorem Placed.emptied (same : state.smap.tx.u8IndexStart = state.smap.tx.u8IndexEnd) :
    { state.smap.tx with u16PTRStart := state.smap.tx.u16PTREnd } = state.smap.tx := by
  have empty := (placed.indexed.empty_iff placed.notFull).mp same
  have ends : state.smap.tx.u16PTREnd = state.smap.tx.u16PTRStart := by
    rw [placed.ends, State.bytesInUse, empty]
    exact Nat.mod_eq_of_lt placed.start
  rw [ends]

/-- A completion keeps the lengths and the places of the frames. -/
theorem Placed.complete (index : Nat) (ctrlStat : BitVec 16) :
    Placed (state.setTx { state.smap.tx with
      pBD := Function.update state.smap.tx.pBD (index % smapBdMaxEntry)
        { state.smap.tx.pBD (index % smapBdMaxEntry) with
          ctrlStat := ctrlStat &&& ~~~smapBdTxReady } }) := by
  have kept {γ : Type} (field : SMapBD → γ) (same : field { state.smap.tx.pBD
      (index % smapBdMaxEntry) with ctrlStat := ctrlStat &&& ~~~smapBdTxReady } =
      field (state.smap.tx.pBD (index % smapBdMaxEntry))) :=
    Ring.map_window_update field state.smap.tx.pBD smapBdMaxEntry state.smap.tx.u8IndexStart
      state.unreaped.length (index % smapBdMaxEntry) _ same
  refine ⟨⟨placed.indexed.start, placed.indexed.ahead⟩, placed.notFull, placed.start, placed.ends,
    placed.fits, ?_, ?_⟩
  · exact (kept SMapBD.length rfl).trans placed.lengths
  · have laid := placed.laid
    rw [State.frames, ← kept SMapBD.region rfl] at laid
    exact laid

end Placed

/-- A completion leaves the bytes of the frames. -/
theorem complete_inFlight (state : State) (index : Nat) (ctrlStat : BitVec 16) :
    (state.setTx { state.smap.tx with
      pBD := Function.update state.smap.tx.pBD (index % smapBdMaxEntry)
        { state.smap.tx.pBD (index % smapBdMaxEntry) with
          ctrlStat := ctrlStat &&& ~~~smapBdTxReady } }).inFlight = state.inFlight :=
  Ring.map_window_update state.frameOf state.smap.tx.pBD smapBdMaxEntry
    state.smap.tx.u8IndexStart state.unreaped.length (index % smapBdMaxEntry)
    { state.smap.tx.pBD (index % smapBdMaxEntry) with ctrlStat := ctrlStat &&& ~~~smapBdTxReady } rfl

/-- `HandleTXInt` puts nothing out and counts nothing: it only takes frames back. -/
def framesPolicy : Service.Policy (List UInt8) (BitVec 16) Empty Unit where
  outcome _ _ := []
  account _ _ _ := ()

/-- The ring seen as a server of the frames sent. -/
def framesView : Service.View State Action (List UInt8) (BitVec 16) Empty Unit where
  arrives := framesSent
  answers := statusTaken
  puts _ _ := []
  tally _ := ()
  Waiting state frames := Placed state ∧ state.inFlight = frames

/-- The frames taken back so far, each with its status. -/
def framesTaken (steps : List (State × Action)) : List (List UInt8 × BitVec 16) :=
  framesView.served steps

/-- A step that sends nothing and takes nothing back. -/
theorem still_serves {state next : State} {action : Action} {frames : List (List UInt8)}
    (flight : state.inFlight = frames) (placed : Placed next) (same : next.inFlight = state.inFlight)
    (unsent : framesSent state action = []) (untaken : statusTaken state action = []) :
    Service.Moves framesView framesPolicy state action next frames := by
  refine Service.Moves.arrival ⟨placed, ?_⟩ untaken rfl rfl
  change next.inFlight = frames ++ framesSent state action
  rw [same, flight, unsent, List.append_nil]

/-- Every roomy step is a move of the server of frames in flight.

Proof: by the moves. An accepted frame is placed behind those in flight and arrives; a
descriptor that is reaped was the first of them, and is served with the status it had. All
other steps leave the frames where they are. -/
theorem moves_serves {state next : State} {action : Action} {frames : List (List UInt8)}
    (waiting : framesView.Waiting state frames) (roomy : Roomy state action)
    (moves : Moves state action next) :
    Service.Moves framesView framesPolicy state action next frames := by
  obtain ⟨placed, flight⟩ := waiting
  have indexed := moves_indexed placed.indexed moves
  have unmoved : Placed { state with txInt := none } :=
    ⟨⟨placed.indexed.start, placed.indexed.ahead⟩, placed.notFull, placed.start, placed.ends,
      placed.fits, placed.lengths, placed.laid⟩
  cases moves with
  | handleTXInt | link =>
    refine still_serves flight ?_ rfl rfl rfl
    exact ⟨indexed, placed.notFull, placed.start, placed.ends, placed.fits, placed.lengths,
      placed.laid⟩
  | complete index ctrlStat =>
    exact still_serves flight (placed.complete index ctrlStat) (complete_inFlight state index ctrlStat)
      rfl rfl
  | refused here refused => exact still_serves flight placed rfl (if_neg refused) rfl
  | unfinished here isReady =>
    refine still_serves flight unmoved rfl rfl (if_neg ?_)
    rintro ⟨-, -, done⟩
    rw [isReady] at done
    cases done
  | reaped here same =>
    rw [placed.emptied same] at indexed ⊢
    refine still_serves flight unmoved rfl rfl (if_neg ?_)
    rintro ⟨-, active, -⟩
    exact active same
  | @sent pPacket gnp here accepted =>
    have room : HasRoom state pPacket := roomy accepted
    have arrives : framesSent state (.send pPacket gnp) = [pPacket.bytes] := if_pos accepted
    refine Service.Moves.arrival ⟨placed.sent accepted room indexed, ?_⟩ rfl rfl rfl
    change (state.sent pPacket gnp).inFlight = frames ++ framesSent state (.send pPacket gnp)
    rw [placed.sent_inFlight accepted room, flight, arrives]
  | @reap noError here reaps =>
    have first := placed.reaped_inFlight reaps.1 (some (noError &&
      (state.smap.tx.pBD state.smap.tx.u8IndexStart).ctrlStat &&& smapBdTxErrmask == 0))
    have status : statusTaken state .txIntTurn =
        [(state.smap.tx.pBD state.smap.tx.u8IndexStart).ctrlStat] := by
      refine if_pos ⟨?_, reaps⟩
      simp [here]
    exact Service.Moves.service _ _ _ (flight.symm.trans first)
      ⟨placed.reaped reaps.1 _ indexed, rfl⟩ rfl status rfl rfl

/-- The frames sent over a run are those taken back, each once and in order, when the
hardware was done with it, and those in flight. -/
structure FramesServed (steps : List (State × Action)) (state : State) : Prop where
  order : Runs.observed framesSent steps = (framesTaken steps).map Prod.fst ++ state.inFlight
  finished : ∀ entry ∈ framesTaken steps, entry.2 &&& smapBdTxReady = 0

/-- A status that `HandleTXInt` takes is that of a descriptor the hardware has finished. -/
theorem statusTaken_finished {state : State} {action : Action} {ctrlStat : BitVec 16}
    (member : ctrlStat ∈ statusTaken state action) : ctrlStat &&& smapBdTxReady = 0 := by
  cases action with
  | txIntTurn =>
    simp only [statusTaken] at member
    split at member
    · next taken =>
      obtain rfl := List.mem_singleton.mp member
      simpa [SMapBD.ready] using taken.2.2
    · simp at member
  | _ => simp [statusTaken] at member

/-- Every run with room serves its frames in order, by induction on the run. -/
theorem run_framesServed {steps : List (State × Action)} {state : State} (run : TxRun steps state)
    (roomy : Runs.Meets Roomy steps) : FramesServed steps state := by
  have initially (state : State) (initial : Initialised state) :
      framesView.Waiting state [] ∧ framesView.tally state = () := by
    refine ⟨⟨initialised_placed initial, ?_⟩, rfl⟩
    simp [State.inFlight, State.frames, initial.unreaped]
  have account : ∃ past frames,
      Service.Served framesView framesPolicy () steps state past frames :=
    Service.run_served initially
      (fun _ _ _ _ waiting roomy taken => moves_serves waiting roomy (step_moves taken)) run roomy
  obtain ⟨past, frames, served⟩ := account
  have zipped : past.zip (Runs.observed statusTaken steps) = framesTaken steps := served.zip_eq
  have answered : past.length = (Runs.observed statusTaken steps).length := served.answered
  constructor
  · rw [← zipped, List.map_fst_zip (Nat.le_of_eq answered), served.waiting.2]
    exact served.order
  · intro entry member
    rw [← zipped] at member
    obtain ⟨step, -, here⟩ := List.mem_flatMap.mp (List.of_mem_zip member).2
    exact statusTaken_finished here

end Ps2Eth.SmapLinux
