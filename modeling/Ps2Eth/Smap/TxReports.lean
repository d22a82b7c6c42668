import Ps2Eth.Lib.Service
import Ps2Eth.Smap.TxOrder

/-!
# What becomes of the frames sent in the smap driver

`HandleTxIntr` takes the descriptors back in the order in which `HandleTxReqs` wrote
them, and counts what the hardware reports of each frame. The frames in flight are a
queue that the hardware's reports serve, so the statistics of a whole run are those of
the frames taken back, each with the status that its descriptor had then.
-/

namespace Ps2Eth.Smap

/-- The error bits `HandleTxIntr` tests. -/
def smapBdTxErrors : BitVec 16 :=
  smapBdTxUnderrun ||| smapBdTxLcoll ||| smapBdTxEcoll ||| smapBdTxEdefer ||| smapBdTxLosscr

/-- The bits of a collision. -/
def smapBdTxCollision : BitVec 16 :=
  smapBdTxScoll ||| smapBdTxMcoll ||| smapBdTxLcoll ||| smapBdTxEcoll

/-- The status with which `HandleTxIntr` takes a descriptor back in a step. -/
def reported (state : State) : Action → List (BitVec 16)
  | .handler _ => match state.handler with
    | .txIntr =>
        if state.adapter.reap.isSome then
          [(state.adapter.bd (state.adapter.drv.txDNVBDIndex % smapBdMaxEntry)).ctrlStat]
        else []
    | _ => []
  | _ => []

/-- The driver's way with the frames in flight: nothing is put out. -/
def txPolicy : Service.Policy (List UInt8) (BitVec 16) Empty RuntimeStats where
  outcome _ _ := []
  account stats _ ctrlStat := Adapter.countErrors stats ctrlStat

/-- The transmit path seen as a server of the frames written. -/
def txView : Service.View State Action (List UInt8) (BitVec 16) Empty RuntimeStats where
  arrives := written
  answers := reported
  puts _ _ := []
  tally state := state.adapter.drv.runtimeStats
  Waiting state frames := Settled state ∧ state.adapter.inFlight.map state.adapter.frameOf = frames

/-- The frames taken back so far, with what was reported of them. -/
def takenBack (steps : List (State × Action)) : List (List UInt8 × BitVec 16) := txView.served steps

/-- A frame that was not sent, for one of the given reasons among others. -/
def unsent (bits : BitVec 16) (entry : List UInt8 × BitVec 16) : Bool :=
  hasAny entry.2 smapBdTxErrors && hasAny entry.2 bits

/-- The bits that are counted for a frame. -/
def unsentBits (entry : List UInt8 × BitVec 16) : Nat :=
  if hasAny entry.2 smapBdTxErrors then (List.range 16).countP entry.2.getLsbD else 0

/-- The statistics of transmission, as seen after some steps: the frames written are
those taken back, each once and in order, and those in flight; each was taken back when
the hardware was done with it; and the counters are those of the frames taken back. -/
structure Reports (steps : List (State × Action)) (state : State) : Prop where
  order : Runs.observed written steps =
    (takenBack steps).map Prod.fst ++ state.adapter.inFlight.map state.adapter.frameOf
  reported : (takenBack steps).map Prod.snd = Runs.observed reported steps
  finished : ∀ entry ∈ takenBack steps, hasAny entry.2 smapBdTxReady = false
  errors : state.adapter.drv.runtimeStats.txErrorCount =
    BitVec.ofNat 32 ((takenBack steps).map unsentBits).sum
  dropped : state.adapter.drv.runtimeStats.txDroppedFrameCount =
    BitVec.ofNat 32 ((takenBack steps).countP (unsent smapBdTxErrors))
  losscr : state.adapter.drv.runtimeStats.txFrameLOSSCRCount =
    BitVec.ofNat 16 ((takenBack steps).countP (unsent smapBdTxLosscr))
  edefer : state.adapter.drv.runtimeStats.txFrameEDEFERCount =
    BitVec.ofNat 16 ((takenBack steps).countP (unsent smapBdTxEdefer))
  collision : state.adapter.drv.runtimeStats.txFrameCollisionCount =
    BitVec.ofNat 16 ((takenBack steps).countP (unsent smapBdTxCollision))
  underrun : state.adapter.drv.runtimeStats.txFrameUnderrunCount =
    BitVec.ofNat 16 ((takenBack steps).countP (unsent smapBdTxUnderrun))

/-- A descriptor is taken back when its ready bit is clear. -/
theorem reported_finished {state : State} {action : Action} {ctrlStat : BitVec 16}
    (member : ctrlStat ∈ reported state action) : hasAny ctrlStat smapBdTxReady = false := by
  unfold reported at member
  split at member
  · split at member
    · split at member
      next done =>
        obtain ⟨adapter, reaped⟩ := Option.isSome_iff_exists.mp done
        obtain ⟨-, given, -⟩ := Adapter.reap_cases reaped
        obtain rfl := List.mem_singleton.mp member
        exact given
      next => simp at member
    · simp at member
  · simp at member

/-- A step that writes no descriptor and takes none back. -/
theorem quiet_moves {state next : State} {action : Action} {frames : List (List UInt8)}
    (waiting : txView.Waiting state frames) (settled : Settled next)
    (same : next.adapter.inFlight.map next.adapter.frameOf =
      state.adapter.inFlight.map state.adapter.frameOf)
    (stats : next.adapter.drv.runtimeStats = state.adapter.drv.runtimeStats)
    (nothing : written state action = []) (unreported : reported state action = []) :
    Service.Moves txView txPolicy state action next frames := by
  refine Service.Moves.arrival ⟨settled, ?_⟩ unreported rfl stats
  change _ = frames ++ written state action
  rw [nothing, List.append_nil, same, waiting.2]

/-- A descriptor is written behind those in flight. -/
theorem bd_moves {state : State} {data : PbufPtr} {length bdDataPtr : Nat} {dmaOk : Bool}
    {frames : List (List UInt8)} (waiting : txView.Waiting state frames)
    (here : state.handler = .bd data length bdDataPtr)
    (settled : Settled { state with
      adapter := state.adapter.queueBd length bdDataPtr, handler := .unpublish data }) :
    Service.Moves txView txPolicy state (.handler dmaOk) { state with
      adapter := state.adapter.queueBd length bdDataPtr, handler := .unpublish data } frames := by
  obtain ⟨⟨accounted, tested⟩, inFlight⟩ := waiting
  simp only [State.copied, here] at accounted
  simp only [State.Tested, here] at tested
  have slot : (state.adapter.queueBd length bdDataPtr).bd
      (state.adapter.drv.txBDIndex % smapBdMaxEntry) =
      ⟨smapBdTxReady ||| smapBdTxGenfcs ||| smapBdTxGenpad, length % 65536, bdDataPtr⟩ := by
    simp only [Adapter.queueBd, Function.update_self]
  have arrives : written state (.handler dmaOk) = [state.adapter.frameOf
      ⟨smapBdTxReady ||| smapBdTxGenfcs ||| smapBdTxGenpad, length % 65536, bdDataPtr⟩] := by
    simp only [written, here, slot]
    rfl
  have unreported : reported state (.handler dmaOk) = [] := by simp only [reported, here]
  refine Service.Moves.arrival ⟨settled, ?_⟩ unreported rfl rfl
  change (state.adapter.queueBd length bdDataPtr).inFlight.map state.adapter.frameOf =
    frames ++ written state (.handler dmaOk)
  rw [accounted.queueBd_inFlight tested, List.map_append, inFlight, arrives]
  rfl

/-- The oldest descriptor in flight is taken back. -/
theorem reap_moves {state : State} {adapter : Adapter} {dmaOk : Bool} {frames : List (List UInt8)}
    (waiting : txView.Waiting state frames) (here : state.handler = .txIntr)
    (done : state.adapter.reap = some adapter)
    (settled : Settled { state with adapter := adapter }) :
    Service.Moves txView txPolicy state (.handler dmaOk) { state with adapter := adapter }
      frames := by
  obtain ⟨some, given, -, fifo, -⟩ := Adapter.reap_cases done
  have first := Adapter.reap_inFlight done
  have same : adapter.frameOf = state.adapter.frameOf := by
    funext bd
    simp only [Adapter.frameOf, fifo]
  have stats : adapter.drv.runtimeStats = Adapter.countErrors state.adapter.drv.runtimeStats
      (state.adapter.bd (state.adapter.drv.txDNVBDIndex % smapBdMaxEntry)).ctrlStat := by
    simp only [Adapter.reap, some, if_true, given, Bool.false_eq_true, if_false,
      Option.some.injEq] at done
    exact done ▸ rfl
  have inFlight := waiting.2
  rw [first, List.map_cons] at inFlight
  have nothing : written state (.handler dmaOk) = [] := by simp only [written, here]
  have status : reported state (.handler dmaOk) =
      [(state.adapter.bd (state.adapter.drv.txDNVBDIndex % smapBdMaxEntry)).ctrlStat] := by
    simp only [reported, here, done, Option.isSome_some, if_true]
  exact Service.Moves.service _ (adapter.inFlight.map state.adapter.frameOf) _ inFlight.symm
    ⟨settled, by rw [same]⟩ nothing status rfl stats

/-- Every step is a move of the server of frames in flight. -/
theorem moves_served {state next : State} {action : Action} {frames : List (List UInt8)}
    (waiting : txView.Waiting state frames) (moves : Moves state action next) :
    Service.Moves txView txPolicy state action next frames := by
  have settled := moves_settled waiting.1 moves
  cases moves with
  | refused | coalesced | whole | enq | linked | unlinked | signal | take | leave | drain | drained
    | drainUnlink | drainEmpty | drainClear | drainFree | handleTxReqs | handleTxIntr | link
    | setEvents | waitEvents => exact quiet_moves waiting settled rfl rfl rfl rfl
  | peek here | nothing here | fits here | dropped here | full here | unlink here | unlinkEmpty here
    | clear here | free here | publish here | unpublish here =>
    exact quiet_moves waiting settled rfl rfl (by simp only [written, here])
      (by simp only [reported, here])
  | reaped here ended =>
    exact quiet_moves waiting settled rfl rfl (by simp only [written, here])
      (by simp [reported, here, ended])
  | complete index ctrlStat =>
    exact quiet_moves waiting settled (Adapter.complete_frames state.adapter index ctrlStat) rfl rfl
      rfl
  | copy here =>
    obtain ⟨accounted, tested⟩ := waiting.1
    simp only [State.copied, here] at accounted
    simp only [State.Tested, here] at tested
    refine quiet_moves waiting settled ?_ rfl (by simp only [written, here])
      (by simp only [reported, here])
    exact List.map_congr_left fun bd member => accounted.copy_keeps_frames _ _ tested.2 member
  | bd here => exact bd_moves waiting here settled
  | reap here done => exact reap_moves waiting here done settled

/-- The frames that were not sent for a reason are counted. -/
theorem unsent_count {width : Nat} (counter : RuntimeStats → BitVec width) (bits : BitVec 16)
    (errs : ∀ stats ctrlStat, hasAny ctrlStat smapBdTxErrors = true →
      counter (Adapter.countErrors stats ctrlStat) =
        if hasAny ctrlStat bits then counter stats + 1 else counter stats)
    (stats : RuntimeStats) (entries : List (List UInt8 × BitVec 16)) :
    counter (txPolicy.counted stats entries) =
      counter stats + BitVec.ofNat width (entries.countP (unsent bits)) := by
  refine Service.counted_eq txPolicy counter (fun frame ctrlStat => unsent bits (frame, ctrlStat))
    (fun stats frame ctrlStat => ?_) stats entries
  change counter (Adapter.countErrors stats ctrlStat) = _
  cases errors : hasAny ctrlStat smapBdTxErrors with
  | true => simp [unsent, errors, errs]
  | false =>
    have same : Adapter.countErrors stats ctrlStat = stats := by
      change hasAny ctrlStat (smapBdTxUnderrun ||| smapBdTxLcoll ||| smapBdTxEcoll |||
        smapBdTxEdefer ||| smapBdTxLosscr) = false at errors
      simp [Adapter.countErrors, errors]
    simp [unsent, errors, same]

/-- The error bits of the frames that were not sent are counted. -/
theorem unsentBits_sum (stats : RuntimeStats) (entries : List (List UInt8 × BitVec 16)) :
    (txPolicy.counted stats entries).txErrorCount =
      stats.txErrorCount + BitVec.ofNat 32 (entries.map unsentBits).sum := by
  refine Service.counted_sum txPolicy RuntimeStats.txErrorCount
    (fun frame ctrlStat => unsentBits (frame, ctrlStat)) (fun stats frame ctrlStat => ?_) stats
    entries
  change (Adapter.countErrors stats ctrlStat).txErrorCount = _
  unfold Adapter.countErrors unsentBits
  change (if hasAny ctrlStat smapBdTxErrors then _ else _ : RuntimeStats).txErrorCount = _
  cases errors : hasAny ctrlStat smapBdTxErrors with
  | true => simp
  | false => simp

/-- In every run of the two threads and the hardware, the frames taken back are the first
that were written, each once, and the statistics are those of their reports.

Proof: by the run lemma of the service library, with the frames in flight as its queue and
the status that was taken as the answer. The counters are counted over the reports, one
statement for all of them. -/
theorem tx_reports {steps : List (State × Action)} {state : State} (run : TxRun steps state) :
    Reports steps state := by
  have always : Runs.Meets (fun (_ : State) (_ : Action) => True) steps := fun _ _ => trivial
  have initially (state : State) (fresh : Fresh state) :
      txView.Waiting state [] ∧ txView.tally state = ⟨0, 0, 0, 0, 0, 0⟩ := by
    obtain ⟨memory, up, initialised⟩ := fresh.adapter
    refine ⟨⟨fresh_settled fresh, ?_⟩, ?_⟩
    · rw [initialised]
      rfl
    · change state.adapter.drv.runtimeStats = _
      rw [initialised]
      rfl
  have accounts : ∃ past frames,
      Service.Served txView txPolicy ⟨0, 0, 0, 0, 0, 0⟩ steps state past frames :=
    Service.run_served initially
      (fun _ _ _ _ waiting _ taken => moves_served waiting (step_moves taken)) run always
  obtain ⟨past, frames, account⟩ := accounts
  have stats : state.adapter.drv.runtimeStats =
      txPolicy.counted ⟨0, 0, 0, 0, 0, 0⟩ (takenBack steps) := account.tally_eq
  have count {width : Nat} (counter : RuntimeStats → BitVec width) (bits : BitVec 16)
      (zero : counter ⟨0, 0, 0, 0, 0, 0⟩ = 0)
      (errs : ∀ stats ctrlStat, hasAny ctrlStat smapBdTxErrors = true →
        counter (Adapter.countErrors stats ctrlStat) =
          if hasAny ctrlStat bits then counter stats + 1 else counter stats) :
      counter state.adapter.drv.runtimeStats =
        BitVec.ofNat width ((takenBack steps).countP (unsent bits)) := by
    rw [stats, unsent_count counter bits errs, zero, BitVec.ofNat_eq_ofNat, BitVec.zero_add]
  have zipped : past.zip (Runs.observed reported steps) = takenBack steps := account.zip_eq
  have answered : past.length = (Runs.observed reported steps).length := account.answered
  constructor
  · rw [← zipped, List.map_fst_zip (Nat.le_of_eq answered), account.waiting.2]
    exact account.order
  · rw [← zipped, List.map_snd_zip (Nat.le_of_eq answered.symm)]
  · intro entry member
    have seen : entry.2 ∈ Runs.observed reported steps := (List.of_mem_zip member).2
    obtain ⟨step, -, here⟩ := List.mem_flatMap.mp seen
    exact reported_finished here
  · rw [stats, unsentBits_sum]
    simp
  · refine count RuntimeStats.txDroppedFrameCount smapBdTxErrors rfl fun stats ctrlStat errors => ?_
    rw [if_pos errors]
    exact congrArg RuntimeStats.txDroppedFrameCount (if_pos errors)
  · exact count RuntimeStats.txFrameLOSSCRCount smapBdTxLosscr rfl
      fun _ _ errors => congrArg RuntimeStats.txFrameLOSSCRCount (if_pos errors)
  · exact count RuntimeStats.txFrameEDEFERCount smapBdTxEdefer rfl
      fun _ _ errors => congrArg RuntimeStats.txFrameEDEFERCount (if_pos errors)
  · exact count RuntimeStats.txFrameCollisionCount smapBdTxCollision rfl
      fun _ _ errors => congrArg RuntimeStats.txFrameCollisionCount (if_pos errors)
  · exact count RuntimeStats.txFrameUnderrunCount smapBdTxUnderrun rfl
      fun _ _ errors => congrArg RuntimeStats.txFrameUnderrunCount (if_pos errors)

/-- Two frames are sent, the first of them with an underrun. -/
theorem tx_reports_underrun : ∃ steps state, TxRun steps state ∧ Reports steps state ∧
    (takenBack steps).length = 2 ∧ state.adapter.drv.runtimeStats.txFrameUnderrunCount = 1 := by
  obtain ⟨steps, state, run, seen⟩ := Runs.run_of_performed State.step
    (fun steps state => (takenBack steps).length = 2 ∧
      state.adapter.drv.runtimeStats.txFrameUnderrunCount = 1)
    freshDriver_fresh (.link true :: (outputActions (plainCall 0 5 1) ++
      outputActions (plainCall 1 6 2) ++ txReqsActions 19 ++
      [.complete 1 0, .complete 0 smapBdTxUnderrun, .handleTxIntr, .handler true, .handler true]))
    (by decide +kernel)
  exact ⟨steps, state, run, tx_reports run, seen⟩

end Ps2Eth.Smap
