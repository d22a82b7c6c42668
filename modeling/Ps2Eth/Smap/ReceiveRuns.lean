import Ps2Eth.Lib.FrameRing
import Ps2Eth.Lib.Service
import Ps2Eth.Smap.Receive

/-!
# The receive path of the smap driver over whole runs

`IntrHandlerThread` clears RXEND and calls `HandleRxIntr`, whose loop and the hardware
work on one ring and one memory at the same time. Between any two turns of the loop the
hardware may fill the next descriptor that is its own, write any cell of the receive
memory that no filled descriptor claims, and have `SMAP_R_RXFIFO_FRAME_CNT` read any
number. It latches RXEND when it fills a descriptor and when it counts more frames. The
frames it takes from the network have at most 2048 bytes, as those in the ring of
`HandleRxIntr` have.

A frame is its descriptor with the words that stood in its segment when the descriptor
was filled. The driver is a server of these frames; what `pbuf_alloc` answers decides
whether a good frame goes to the network stack.
-/

namespace Ps2Eth.Smap

/-- The receive descriptors over the receive memory. -/
def rxFormat : FrameRing.Format SmapBd where
  slots := smapBdMaxEntry
  capacity := smapRxBufsize
  isFree bd := hasAny bd.ctrlStat smapBdRxEmpty
  start := SmapBd.pointer
  extent bd := sizeRounded bd.length
  someSlot := by decide

/-- A frame as the hardware handed it over. -/
abbrev RxFrame := SmapBd × List UInt8

/-- The driver with the hardware's own place in the ring, the latch of RXEND, and whether
the thread is in `HandleRxIntr`. RXDNV interrupts are counted in the statistics too. -/
structure Reception where
  adapter : RxAdapter
  macBDIndex : Nat
  rxend : Bool
  inHandleRxIntr : Bool
  rxdnvServed : Nat

/-- What happens next: the hardware writes, fills a descriptor or counts, or
`IntrHandlerThread` goes on. -/
inductive RxAction where
  /-- The hardware writes a cell of the receive memory. -/
  | write (address : Nat) (value : UInt8)
  /-- The hardware fills its next descriptor, with a frame of at most 2048 bytes. -/
  | fill (bd : SmapBd)
  /-- `SMAP_R_RXFIFO_FRAME_CNT` comes to read this. -/
  | frameCnt (value : Nat)
  /-- `IntrHandlerThread` clears RXEND and calls `HandleRxIntr`. -/
  | handleRxIntr
  /-- A turn of its loop. -/
  | turn (allocOk dmaOk : Bool)
  /-- It returns. -/
  | returns
  /-- `IntrHandlerThread` serves RXDNV. -/
  | rxdnv

/-- What the stack gets for a frame: nothing if it has an error or no memory was left,
else a pbuf with the words of the frame. -/
def deliver (frame : RxFrame) (allocOk : Bool) : Option RxPbuf :=
  if hasAny frame.1.ctrlStat smapBdRxErrors = false ∧ allocOk = true then
    some ⟨sizeRounded frame.1.length, fun index => frame.2[index]?⟩
  else none

/-- How a frame is counted. -/
def countFrame (stats : RxRuntimeStats) (frame : RxFrame) (allocOk : Bool) : RxRuntimeStats :=
  if hasAny frame.1.ctrlStat smapBdRxErrors then countRxErrors stats frame.1.ctrlStat
  else if allocOk then stats
  else { stats with rxAllocFail := stats.rxAllocFail + 1 }

/-- The driver's way with frames. -/
def rxPolicy : Service.Policy RxFrame Bool RxPbuf RxRuntimeStats where
  outcome frame allocOk := (deliver frame allocOk).toList
  account := countFrame

/-- The bits of a frame of a wrong length. -/
def smapBdRxBadLength : BitVec 16 :=
  smapBdRxInrange ||| smapBdRxOutrange ||| smapBdRxFrmtoolong ||| smapBdRxShortevnt |||
    smapBdRxRuntfrm

/-- A frame with one of the given error bits. -/
def failed (bits : BitVec 16) (served : RxFrame × Bool) : Bool :=
  hasAny served.1.1.ctrlStat smapBdRxErrors && hasAny served.1.1.ctrlStat bits

/-- The error bits that are counted for a frame. -/
def errorBits (served : RxFrame × Bool) : Nat :=
  if hasAny served.1.1.ctrlStat smapBdRxErrors then
    (List.range 16).countP served.1.1.ctrlStat.getLsbD
  else 0

/-- A good frame for which no pbuf was left. -/
def withoutPbuf (served : RxFrame × Bool) : Bool :=
  !hasAny served.1.1.ctrlStat smapBdRxErrors && !served.2

namespace Reception

/-- One step, if the action is possible. -/
def step (state : Reception) : RxAction → Option Reception
  | .write address value =>
      if rxFormat.Claimed state.adapter.bd address then none
      else some { state with adapter := { state.adapter with
        fifo := { state.adapter.fifo with
          cells := Function.update state.adapter.fifo.cells address value } } }
  | .fill bd =>
      let slot := state.macBDIndex % smapBdMaxEntry
      if hasAny (state.adapter.bd slot).ctrlStat smapBdRxEmpty = true ∧
          hasAny bd.ctrlStat smapBdRxEmpty = false ∧ bd.length ≤ 2048 ∧ bd.pointer < 65536 then
        some { state with
          adapter := { state.adapter with bd := Function.update state.adapter.bd slot bd }
          macBDIndex := state.macBDIndex + 1
          rxend := true }
      else none
  | .frameCnt value =>
      if value < 256 then
        some { state with
          adapter := { state.adapter with frameCnt := value }
          rxend := state.rxend || decide (state.adapter.frameCnt < value) }
      else none
  | .handleRxIntr =>
      if state.rxend = true ∧ state.inHandleRxIntr = false then
        some { state with rxend := false, inHandleRxIntr := true }
      else none
  | .turn allocOk dmaOk =>
      if state.inHandleRxIntr then
        (state.adapter.rxTurn allocOk dmaOk).map fun result => { state with adapter := result.2 }
      else none
  | .returns =>
      if state.inHandleRxIntr = true ∧ state.adapter.rxTurn true true = none then
        some { state with inHandleRxIntr := false }
      else none
  | .rxdnv =>
      if state.inHandleRxIntr then none
      else
        let stats := state.adapter.stats
        some { state with
          adapter := { state.adapter with
            stats := { stats with rxFrameOverrunCount := stats.rxFrameOverrunCount + 1 } }
          rxdnvServed := state.rxdnvServed + 1 }

/-- The driver after `smap_init`: every descriptor is the hardware's. -/
structure Initialised (state : Reception) : Prop where
  rxBDIndex : state.adapter.rxBDIndex = 0
  macBDIndex : state.macBDIndex = 0
  bd : ∀ slot < smapBdMaxEntry, state.adapter.bd slot = ⟨smapBdRxEmpty, 0, 0⟩
  stats : state.adapter.stats = ⟨0, 0, 0, 0, 0, 0, 0⟩
  rxdnvServed : state.rxdnvServed = 0

/-- The counters but for what RXDNV counted. -/
def counters (state : Reception) : RxRuntimeStats :=
  { state.adapter.stats with
    rxFrameOverrunCount :=
      state.adapter.stats.rxFrameOverrunCount - BitVec.ofNat 16 state.rxdnvServed }

/-- The frame that arrives in a step. -/
def arrived (state : Reception) : RxAction → List RxFrame
  | .fill bd => [rxFormat.frameAt state.adapter.fifo.cells bd]
  | _ => []

/-- What `pbuf_alloc` would answer in a turn of the loop. -/
def answered (_ : Reception) : RxAction → List Bool
  | .turn allocOk _ => [allocOk]
  | _ => []

/-- The pbuf given to `SMapLowLevelInput` in a step. -/
def input (state : Reception) : RxAction → List RxPbuf
  | .turn allocOk dmaOk => ((state.adapter.rxTurn allocOk dmaOk).bind Prod.fst).toList
  | _ => []

/-- Frames wait in the ring from the driver's index on, and the hardware goes on behind
them. Outside of `HandleRxIntr` a frame that could be taken has RXEND latched. -/
structure Pending (state : Reception) (frames : List RxFrame) : Prop where
  ring : FrameRing.Waiting rxFormat state.adapter.bd state.adapter.fifo.cells
    state.adapter.rxBDIndex frames
  behind : (state.adapter.rxBDIndex + frames.length) % smapBdMaxEntry =
    state.macBDIndex % smapBdMaxEntry
  short : ∀ frame ∈ frames, frame.1.length ≤ 2048
  latched : state.inHandleRxIntr = false → 0 < state.adapter.frameCnt → frames ≠ [] →
    state.rxend = true

/-- The driver seen as a server. -/
def view : Service.View Reception RxAction RxFrame Bool RxPbuf RxRuntimeStats where
  arrives := arrived
  answers := answered
  puts := input
  tally := counters
  Waiting := Pending

/-- The frames taken so far, with the answers of `pbuf_alloc`. -/
def served (steps : List (Reception × RxAction)) : List (RxFrame × Bool) := view.served steps

/-- Ordered exactly-once reception, as seen after some steps. The frames taken are the
first that arrived, one for each turn; the stack got the good ones among them, each
with the words it had on arrival; the counters tell what became of the others; and
outside of `HandleRxIntr` a frame that could be taken has RXEND latched. -/
structure Receives (steps : List (Reception × RxAction)) (state : Reception) : Prop where
  taken : (served steps).length = (Runs.observed answered steps).length
  input : Runs.observed input steps =
    (served steps).filterMap fun entry => deliver entry.1 entry.2
  accounted : (Runs.observed Reception.input steps).length +
    (served steps).countP (failed smapBdRxErrors) + (served steps).countP withoutPbuf =
      (served steps).length
  dropped : state.adapter.stats.rxDroppedFrameCount =
    BitVec.ofNat 32 ((served steps).countP (failed smapBdRxErrors))
  errors : state.adapter.stats.rxErrorCount = BitVec.ofNat 32 ((served steps).map errorBits).sum
  overrun : state.adapter.stats.rxFrameOverrunCount =
    BitVec.ofNat 16 ((served steps).countP (failed smapBdRxOverrun) + state.rxdnvServed)
  badLength : state.adapter.stats.rxFrameBadLengthCount =
    BitVec.ofNat 16 ((served steps).countP (failed smapBdRxBadLength))
  badFCS : state.adapter.stats.rxFrameBadFCSCount =
    BitVec.ofNat 16 ((served steps).countP (failed smapBdRxBadfcs))
  badAlignment : state.adapter.stats.rxFrameBadAlignmentCount =
    BitVec.ofNat 16 ((served steps).countP (failed smapBdRxAlignerr))
  allocFail : state.adapter.stats.rxAllocFail =
    BitVec.ofNat 16 ((served steps).countP withoutPbuf)
  room : (Runs.observed arrived steps).length ≤ (served steps).length + smapBdMaxEntry
  goesOn : ∀ allocOk dmaOk, (state.step (.turn allocOk dmaOk)).isSome = true ↔
    state.inHandleRxIntr = true ∧ 0 < state.adapter.frameCnt ∧
      (served steps).length < (Runs.observed arrived steps).length
  latched : state.inHandleRxIntr = false → 0 < state.adapter.frameCnt →
    (served steps).length < (Runs.observed arrived steps).length → state.rxend = true

/-- What is found for a descriptor is what is delivered for its frame. -/
theorem delivery_eq (adapter : RxAdapter) (bd : SmapBd) (allocOk : Bool) :
    adapter.delivery bd allocOk = deliver (rxFormat.frameAt adapter.fifo.cells bd) allocOk := by
  have words (index : Nat) :
      (Ring.window adapter.fifo.cells smapRxBufsize bd.pointer (sizeRounded bd.length))[index]? =
        if index < sizeRounded bd.length then
          some (adapter.fifo.cells ((bd.pointer + index) % smapRxBufsize)) else none := by
    by_cases within : index < sizeRounded bd.length
    · simp [Ring.window, within]
    · simp [Ring.window, within]
  simp only [RxAdapter.delivery, deliver, FrameRing.Format.frameAt, rxFormat, words]

/-- Taking a frame counts it. -/
theorem takeFrame_stats (adapter : RxAdapter) (bd : SmapBd) (allocOk dmaOk : Bool) :
    (adapter.takeFrame bd allocOk dmaOk).2.stats =
      countFrame adapter.stats (rxFormat.frameAt adapter.fifo.cells bd) allocOk := by
  cases errors : hasAny bd.ctrlStat smapBdRxErrors with
  | true => simp [RxAdapter.takeFrame, countFrame, FrameRing.Format.frameAt, errors]
  | false =>
    cases allocOk with
    | true => simp [RxAdapter.takeFrame, countFrame, FrameRing.Format.frameAt, errors]
    | false => simp [RxAdapter.takeFrame, countFrame, FrameRing.Format.frameAt, errors]

/-- The loop takes a turn exactly when a frame is counted and one waits. -/
theorem rxTurn_isSome_iff {state : Reception} {frames : List RxFrame}
    (pending : state.Pending frames) (allocOk dmaOk : Bool) :
    (state.adapter.rxTurn allocOk dmaOk).isSome = true ↔
      0 < state.adapter.frameCnt ∧ 0 < frames.length := by
  have free : hasAny (state.adapter.bd (state.adapter.rxBDIndex % smapBdMaxEntry)).ctrlStat
      smapBdRxEmpty = true ↔ frames = [] := pending.ring.head_free_iff
  unfold RxAdapter.rxTurn
  by_cases counted : 0 < state.adapter.frameCnt
  · cases frames with
    | nil =>
      have empty := free.mpr rfl
      simp [counted, empty]
    | cons frame rest =>
      have filled : hasAny (state.adapter.bd (state.adapter.rxBDIndex % smapBdMaxEntry)).ctrlStat
          smapBdRxEmpty = false := by simpa using free
      simp [counted, filled]
  · simp [counted]

/-- What RXDNV counted stands apart from the frames. -/
theorem countFrame_sub (stats : RxRuntimeStats) (others : BitVec 16) (frame : RxFrame)
    (allocOk : Bool) :
    countFrame { stats with rxFrameOverrunCount := stats.rxFrameOverrunCount - others } frame
        allocOk =
      { countFrame stats frame allocOk with
        rxFrameOverrunCount := (countFrame stats frame allocOk).rxFrameOverrunCount - others } := by
  have moved (count : BitVec 16) : count - others + 1#16 = count + 1#16 - others := by grind
  cases errors : hasAny frame.1.ctrlStat smapBdRxErrors with
  | true =>
    cases overrun : hasAny frame.1.ctrlStat smapBdRxOverrun with
    | true => simp [countFrame, countRxErrors, errors, overrun, moved]
    | false => simp [countFrame, countRxErrors, errors, overrun]
  | false =>
    cases allocOk with
    | true => simp [countFrame, errors]
    | false => simp [countFrame, errors]

/-- A turn of the loop serves the first frame.

Proof: the descriptor at the index holds the first frame that waits, with its bytes as
they arrived, because the ring says so. The turn takes it, counts it and gives the
descriptor back; the others wait from the next slot on. -/
theorem turn_moves {state : Reception} {frames : List RxFrame} {allocOk dmaOk : Bool}
    {result : Option RxPbuf × RxAdapter} (pending : state.Pending frames)
    (inside : state.inHandleRxIntr = true)
    (turned : state.adapter.rxTurn allocOk dmaOk = some result) :
    Service.Moves view rxPolicy state (.turn allocOk dmaOk) { state with adapter := result.2 }
      frames := by
  have possible : 0 < state.adapter.frameCnt ∧ 0 < frames.length :=
    (rxTurn_isSome_iff pending allocOk dmaOk).mp (by simp [turned])
  cases frames with
  | nil => simp at possible
  | cons frame rest =>
    have here : state.adapter.bd (state.adapter.rxBDIndex % smapBdMaxEntry) = frame.1 :=
      pending.ring.head_eq
    have filled : hasAny frame.1.ctrlStat smapBdRxEmpty = false :=
      pending.ring.filled frame (List.mem_cons_self ..)
    have asArrived : rxFormat.frameAt state.adapter.fifo.cells frame.1 = frame :=
      pending.ring.contents frame (List.mem_cons_self ..)
    have takes := RxAdapter.takeFrame_takes state.adapter allocOk dmaOk
      (pending.short frame (List.mem_cons_self ..))
    have result_eq : result = ((state.adapter.takeFrame frame.1 allocOk dmaOk).1,
        (state.adapter.takeFrame frame.1 allocOk dmaOk).2.release) := by
      simpa [RxAdapter.rxTurn, possible.1, here, filled] using turned.symm
    have index : result.2.rxBDIndex = (state.adapter.rxBDIndex + 1) % 256 := by
      simp only [result_eq, RxAdapter.release, takes.rxBDIndex]
    -- 256 is a multiple of the size of the ring
    have slots (ahead : Nat) : ((state.adapter.rxBDIndex + 1) % 256 + ahead) % smapBdMaxEntry =
        (state.adapter.rxBDIndex + 1 + ahead) % smapBdMaxEntry := by
      simp only [smapBdMaxEntry]
      omega
    have ring : FrameRing.Waiting rxFormat result.2.bd result.2.fifo.cells
        result.2.rxBDIndex rest := by
      have given : rxFormat.isFree ⟨smapBdRxEmpty, frame.1.length, frame.1.pointer⟩ = true := by
        simp only [rxFormat]
        decide
      have released := pending.ring.release given
      have moved := released.congr (slots 0).symm
      have bds : result.2.bd = Function.update state.adapter.bd
          (state.adapter.rxBDIndex % smapBdMaxEntry)
            ⟨smapBdRxEmpty, frame.1.length, frame.1.pointer⟩ := by
        simp only [result_eq, RxAdapter.release, takes.rxBDIndex, takes.bd, here]
      have cells : result.2.fifo.cells = state.adapter.fifo.cells := by
        simp only [result_eq, RxAdapter.release, takes.memory]
      rw [bds, cells, index]
      exact moved
    refine Service.Moves.service frame rest allocOk rfl ⟨ring, ?_, ?_, ?_⟩ rfl rfl ?_ ?_
    · have behind := pending.behind
      have ahead : state.adapter.rxBDIndex + 1 + rest.length =
          state.adapter.rxBDIndex + (rest.length + 1) := by omega
      rw [List.length_cons, ← ahead] at behind
      change (result.2.rxBDIndex + rest.length) % smapBdMaxEntry = _
      rw [index, slots, behind]
    · intro later member
      exact pending.short later (List.mem_cons_of_mem _ member)
    · intro outside
      simp [inside] at outside
    · change ((state.adapter.rxTurn allocOk dmaOk).bind Prod.fst).toList = _
      rw [turned, Option.bind_some, result_eq]
      change (state.adapter.takeFrame frame.1 allocOk dmaOk).1.toList = _
      rw [takes.delivered, delivery_eq, asArrived]
      rfl
    · have counts := takeFrame_stats state.adapter frame.1 allocOk dmaOk
      rw [asArrived] at counts
      have stats : result.2.stats = countFrame state.adapter.stats frame allocOk := by
        simpa only [result_eq, RxAdapter.release] using counts
      change counters { state with adapter := result.2 } =
        countFrame (counters state) frame allocOk
      simp only [counters, countFrame_sub, stats]

/-- A step that keeps the frames as they are and counts none. -/
theorem quiet_moves {state next : Reception} {action : RxAction} {frames : List RxFrame}
    (pending : next.Pending frames) (nothing : state.arrived action = [])
    (unanswered : state.answered action = []) (silent : state.input action = [])
    (uncounted : next.counters = state.counters) :
    Service.Moves view rxPolicy state action next frames := by
  refine Service.Moves.arrival ?_ unanswered silent uncounted
  change next.Pending (frames ++ state.arrived action)
  rwa [nothing, List.append_nil]

/-- The hardware fills its next descriptor: the frame waits last. -/
theorem fill_moves {state next : Reception} {bd : SmapBd} {frames : List RxFrame}
    (pending : state.Pending frames) (taken : state.step (.fill bd) = some next) :
    Service.Moves view rxPolicy state (.fill bd) next frames := by
  simp only [step] at taken
  split at taken
  next possible =>
    obtain ⟨free, filled, short, -⟩ := possible
    obtain rfl := Option.some.inj taken
    have slot : state.macBDIndex % smapBdMaxEntry =
        (state.adapter.rxBDIndex + frames.length) % rxFormat.slots := pending.behind.symm
    rw [slot] at free
    have room := pending.ring.next_free_iff.mp free
    have appended := pending.ring.fill room filled
    rw [← slot] at appended
    refine Service.Moves.arrival ⟨appended, ?_, ?_, fun _ _ _ => rfl⟩ rfl rfl rfl
    · have behind := pending.behind
      simp only [view, arrived, List.length_append, List.length_singleton]
      simp only [smapBdMaxEntry] at behind ⊢
      omega
    · intro frame member
      rcases List.mem_append.mp member with earlier | last
      · exact pending.short frame earlier
      · obtain rfl := List.mem_singleton.mp last
        exact short
  next => simp at taken

/-- Every step is a move of the server of received frames. -/
theorem step_moves {state next : Reception} {action : RxAction} {frames : List RxFrame}
    (pending : state.Pending frames) (taken : state.step action = some next) :
    Service.Moves view rxPolicy state action next frames := by
  obtain ⟨ring, behind, short, latched⟩ := pending
  cases action with
  | write address value =>
    by_cases claimed : rxFormat.Claimed state.adapter.bd address
    · simp [step, claimed] at taken
    · obtain rfl : _ = next := by simpa [step, claimed] using taken
      have kept (other : Nat) (isClaimed : rxFormat.Claimed state.adapter.bd other) :
          Function.update state.adapter.fifo.cells address value other =
            state.adapter.fifo.cells other := by
        have apart : other ≠ address := by
          rintro rfl
          exact claimed isClaimed
        exact Function.update_of_ne apart _ _
      exact quiet_moves ⟨ring.write kept, behind, short, latched⟩ rfl rfl rfl rfl
  | fill bd => exact fill_moves ⟨ring, behind, short, latched⟩ taken
  | frameCnt value =>
    by_cases small : value < 256
    · obtain rfl : _ = next := by simpa [step, small] using taken
      refine quiet_moves ⟨ring, behind, short, ?_⟩ rfl rfl rfl rfl
      intro outside some waiting
      by_cases more : state.adapter.frameCnt < value
      · simp [more]
      · have before : 0 < state.adapter.frameCnt :=
          Nat.lt_of_lt_of_le some (Nat.le_of_not_lt more)
        simp [latched outside before waiting]
    · simp [step, small] at taken
  | handleRxIntr =>
    simp only [step] at taken
    split at taken
    next =>
      obtain rfl := Option.some.inj taken
      exact quiet_moves ⟨ring, behind, short, by simp⟩ rfl rfl rfl rfl
    next => simp at taken
  | turn allocOk dmaOk =>
    simp only [step] at taken
    split at taken
    next inside =>
      obtain ⟨result, turned, rfl⟩ := Option.map_eq_some_iff.mp taken
      exact turn_moves ⟨ring, behind, short, latched⟩ inside turned
    next => simp at taken
  | returns =>
    simp only [step] at taken
    split at taken
    next ends =>
      obtain rfl := Option.some.inj taken
      refine quiet_moves ⟨ring, behind, short, ?_⟩ rfl rfl rfl rfl
      intro _ some waiting
      have turns := rxTurn_isSome_iff ⟨ring, behind, short, latched⟩ true true
      have none : ¬ (0 < state.adapter.frameCnt ∧ 0 < frames.length) := by
        rw [← turns, ends.2]
        simp
      exact absurd ⟨some, List.length_pos_of_ne_nil waiting⟩ none
    next => simp at taken
  | rxdnv =>
    simp only [step] at taken
    split at taken
    next => simp at taken
    next =>
      obtain rfl := Option.some.inj taken
      have same : state.adapter.stats.rxFrameOverrunCount + 1 -
          BitVec.ofNat 16 (state.rxdnvServed + 1) =
            state.adapter.stats.rxFrameOverrunCount - BitVec.ofNat 16 state.rxdnvServed := by
        rw [BitVec.ofNat_add]
        grind
      exact quiet_moves ⟨ring, behind, short, latched⟩ rfl rfl rfl (by simp only [counters, same])

/-- After the initialisation no frame waits. -/
theorem initialised_pending {state : Reception} (initialised : state.Initialised) :
    state.Pending [] where
  ring := by
    refine FrameRing.waiting_nil (fun slot inside => ?_) _
    change hasAny (state.adapter.bd slot).ctrlStat smapBdRxEmpty = true
    rw [initialised.bd slot inside]
    decide
  behind := by rw [initialised.rxBDIndex, initialised.macBDIndex]; rfl
  short := by simp
  latched := by simp

/-- The counters of a fresh driver. -/
theorem initialised_counters {state : Reception} (initialised : state.Initialised) :
    state.counters = ⟨0, 0, 0, 0, 0, 0, 0⟩ := by
  simp [counters, initialised.stats, initialised.rxdnvServed]

/-- Every frame taken is delivered, counted as dropped or counted as lost for want of a
pbuf. -/
theorem outcomes_length (entries : List (RxFrame × Bool)) :
    (entries.filterMap fun entry => deliver entry.1 entry.2).length +
      entries.countP (failed smapBdRxErrors) + entries.countP withoutPbuf = entries.length := by
  induction entries with
  | nil => rfl
  | cons entry rest inductionHypothesis =>
    obtain ⟨frame, allocOk⟩ := entry
    cases errors : hasAny frame.1.ctrlStat smapBdRxErrors with
    | true =>
      simp [deliver, failed, withoutPbuf, errors] at inductionHypothesis ⊢
      omega
    | false =>
      cases allocOk with
      | true =>
        simp [deliver, failed, withoutPbuf, errors] at inductionHypothesis ⊢
        omega
      | false =>
        simp [deliver, failed, withoutPbuf, errors] at inductionHypothesis ⊢
        omega

/-- The frames with one of the given error bits are counted. -/
theorem failed_count {width : Nat} (counter : RxRuntimeStats → BitVec width) (bits : BitVec 16)
    (errs : ∀ stats ctrlStat, hasAny ctrlStat smapBdRxErrors = true →
      counter (countRxErrors stats ctrlStat) =
        if hasAny ctrlStat bits then counter stats + 1 else counter stats)
    (others : ∀ stats : RxRuntimeStats,
      counter { stats with rxAllocFail := stats.rxAllocFail + 1 } = counter stats)
    (stats : RxRuntimeStats) (entries : List (RxFrame × Bool)) :
    counter (rxPolicy.counted stats entries) =
      counter stats + BitVec.ofNat width (entries.countP (failed bits)) := by
  refine Service.counted_eq rxPolicy counter (fun frame allocOk => failed bits (frame, allocOk))
    (fun stats frame allocOk => ?_) stats entries
  change counter (countFrame stats frame allocOk) = _
  cases errors : hasAny frame.1.ctrlStat smapBdRxErrors with
  | true => simp [countFrame, failed, errors, errs]
  | false =>
    cases allocOk with
    | true => simp [countFrame, failed, errors]
    | false => simpa [countFrame, failed, errors] using others stats

/-- The error bits of all frames are counted. -/
theorem errorBits_sum (stats : RxRuntimeStats) (entries : List (RxFrame × Bool)) :
    (rxPolicy.counted stats entries).rxErrorCount =
      stats.rxErrorCount + BitVec.ofNat 32 (entries.map errorBits).sum := by
  refine Service.counted_sum rxPolicy RxRuntimeStats.rxErrorCount
    (fun frame allocOk => errorBits (frame, allocOk)) (fun stats frame allocOk => ?_) stats entries
  change (countFrame stats frame allocOk).rxErrorCount = _
  cases errors : hasAny frame.1.ctrlStat smapBdRxErrors with
  | true => simp [countFrame, errorBits, errors, countRxErrors]
  | false =>
    cases allocOk with
    | true => simp [countFrame, errorBits, errors]
    | false => simp [countFrame, errorBits, errors]

/-- The frames without a pbuf are counted. -/
theorem allocFail_count (stats : RxRuntimeStats) (entries : List (RxFrame × Bool)) :
    (rxPolicy.counted stats entries).rxAllocFail =
      stats.rxAllocFail + BitVec.ofNat 16 (entries.countP withoutPbuf) := by
  refine Service.counted_eq rxPolicy RxRuntimeStats.rxAllocFail
    (fun frame allocOk => withoutPbuf (frame, allocOk)) (fun stats frame allocOk => ?_) stats
    entries
  change (countFrame stats frame allocOk).rxAllocFail = _
  cases errors : hasAny frame.1.ctrlStat smapBdRxErrors with
  | true => simp [countFrame, withoutPbuf, errors, countRxErrors]
  | false => cases allocOk <;> simp [countFrame, withoutPbuf, errors]

/-- In every run of the hardware and the driver, whatever is written to the memory
between the turns and whatever the frame counter reads, reception is ordered and
exactly once, and every frame taken is accounted for.

Proof: by the run lemma of the service library, with the frames that wait in the ring as
its queue: the hardware adds one at the end, a turn takes the first. The counters are then
counted over the frames taken, one statement for all of them. -/
theorem receives_exactly_once {steps : List (Reception × RxAction)} {state : Reception}
    (run : Runs.Run step Initialised steps state) : Receives steps state := by
  have always : Runs.Meets (fun (_ : Reception) (_ : RxAction) => True) steps :=
    fun _ _ => trivial
  have accounts : ∃ past frames,
      Service.Served view rxPolicy ⟨0, 0, 0, 0, 0, 0, 0⟩ steps state past frames :=
    Service.run_served (fun state start => ⟨initialised_pending start, initialised_counters start⟩)
      (fun state action next frames waiting _ taken => step_moves waiting taken) run always
  obtain ⟨past, frames, account⟩ := accounts
  have input_eq : Runs.observed input steps =
      (served steps).filterMap fun entry => deliver entry.1 entry.2 := by
    rw [List.filterMap_eq_flatMap_toList]
    exact account.puts_eq
  have stats : state.counters = rxPolicy.counted ⟨0, 0, 0, 0, 0, 0, 0⟩ (served steps) :=
    account.tally_eq
  have pending : state.Pending frames := account.waiting
  have arrivals : (Runs.observed arrived steps).length = (served steps).length + frames.length :=
    account.arrives_length
  have count {width : Nat} (counter : RxRuntimeStats → BitVec width) (bits : BitVec 16)
      (zero : counter ⟨0, 0, 0, 0, 0, 0, 0⟩ = 0)
      (errs : ∀ stats ctrlStat, hasAny ctrlStat smapBdRxErrors = true →
        counter (countRxErrors stats ctrlStat) =
          if hasAny ctrlStat bits then counter stats + 1 else counter stats)
      (others : ∀ stats : RxRuntimeStats,
        counter { stats with rxAllocFail := stats.rxAllocFail + 1 } = counter stats) :
      counter state.counters = BitVec.ofNat width ((served steps).countP (failed bits)) := by
    rw [stats, failed_count counter bits errs others, zero, BitVec.ofNat_eq_ofNat, BitVec.zero_add]
  constructor
  · exact account.length_eq
  · exact input_eq
  · rw [input_eq]
    exact outcomes_length (served steps)
  · refine count RxRuntimeStats.rxDroppedFrameCount smapBdRxErrors rfl ?_ fun _ => rfl
    intro stats ctrlStat errors
    simp [countRxErrors, errors]
  · have errors : state.counters.rxErrorCount = _ := congrArg RxRuntimeStats.rxErrorCount stats
    rw [errorBits_sum] at errors
    simpa [counters] using errors
  · have overrun := count RxRuntimeStats.rxFrameOverrunCount smapBdRxOverrun rfl
      (fun _ _ _ => rfl) fun _ => rfl
    simp only [counters] at overrun
    rw [BitVec.ofNat_add]
    grind
  · exact count RxRuntimeStats.rxFrameBadLengthCount smapBdRxBadLength rfl
      (fun _ _ _ => rfl) fun _ => rfl
  · exact count RxRuntimeStats.rxFrameBadFCSCount smapBdRxBadfcs rfl
      (fun _ _ _ => rfl) fun _ => rfl
  · exact count RxRuntimeStats.rxFrameBadAlignmentCount smapBdRxAlignerr rfl
      (fun _ _ _ => rfl) fun _ => rfl
  · have allocFail : state.counters.rxAllocFail = _ := congrArg RxRuntimeStats.rxAllocFail stats
    rw [allocFail_count] at allocFail
    simpa [counters] using allocFail
  · rw [arrivals]
    exact Nat.add_le_add_left pending.ring.fits _
  · intro allocOk dmaOk
    have turns := rxTurn_isSome_iff pending allocOk dmaOk
    rw [arrivals, Nat.lt_add_right_iff_pos, ← turns]
    cases inside : state.inHandleRxIntr with
    | true => simp [step, inside]
    | false => simp [step, inside]
  · intro outside some waiting
    rw [arrivals, Nat.lt_add_right_iff_pos] at waiting
    exact pending.latched outside some (List.ne_nil_of_length_pos waiting)

/-- A fresh driver over a memory that holds its own addresses. -/
def freshReception : Reception where
  adapter :=
    { rxBDIndex := 0
      stats := ⟨0, 0, 0, 0, 0, 0, 0⟩
      bd := fun _ => ⟨smapBdRxEmpty, 0, 0⟩
      fifo := ⟨fun address => UInt8.ofNat address, 0⟩
      frameCnt := 0 }
  macBDIndex := 0
  rxend := false
  inHandleRxIntr := false
  rxdnvServed := 0

/-- A frame across the end of the memory, an overrun one and one for which no pbuf is
left, with cells written and a frame counted between the turns. -/
theorem receives_exactly_once_three : ∃ steps state, Runs.Run step Initialised steps state ∧
    Receives steps state ∧ (Runs.observed input steps).length = 1 ∧
    state.adapter.stats.rxDroppedFrameCount = 1 ∧ state.adapter.stats.rxAllocFail = 1 := by
  have fresh : Initialised freshReception := ⟨rfl, rfl, fun _ _ => rfl, rfl, rfl⟩
  obtain ⟨steps, state, run, seen⟩ := Runs.run_of_performed step
    (fun steps state => (Runs.observed input steps).length = 1 ∧
      state.adapter.stats.rxDroppedFrameCount = 1 ∧ state.adapter.stats.rxAllocFail = 1)
    fresh [.fill ⟨0, 5, 16380⟩, .frameCnt 1, .write 4 7, .handleRxIntr,
      .fill ⟨smapBdRxOverrun, 6, 4⟩, .turn true false, .returns, .rxdnv, .handleRxIntr,
      .write 16380 1, .fill ⟨0, 4, 16380⟩, .frameCnt 2, .turn true true, .turn false true,
      .returns] (by decide +kernel)
  exact ⟨steps, state, run, receives_exactly_once run, seen⟩

/-- The loop of `HandleRxIntr` is a run of its turns: what it gives to the stack is what
the run does. -/
theorem handleRxIntr_performs {steps : List (Reception × RxAction)} {state : Reception}
    (run : Runs.Run step Initialised steps state) (inside : state.inHandleRxIntr = true)
    (allocOk dmaOk : Nat → Bool) :
    ∃ more, Runs.Run step Initialised (steps ++ more)
        { state with adapter := (state.adapter.handleRxIntr allocOk dmaOk).2.2 } ∧
      Runs.observed input more = (state.adapter.handleRxIntr allocOk dmaOk).2.1 := by
  have does (number : Nat) (adapter : RxAdapter) (result : Option RxPbuf × RxAdapter)
      (taken : adapter.rxTurn (allocOk number) (dmaOk number) = some result) :
      step { state with adapter := adapter } (.turn (allocOk number) (dmaOk number)) =
          some { state with adapter := result.2 } ∧
        input { state with adapter := adapter } (.turn (allocOk number) (dmaOk number)) =
          result.1.toList := by
    simp [step, input, taken, inside]
  obtain ⟨more, reached, seen⟩ := Loops.run_append_turns
    (fun adapter => { state with adapter := adapter }) _ input Option.toList does
    state.adapter.frameCnt 0 state.adapter run
  refine ⟨more, reached, seen.trans ?_⟩
  simp only [RxAdapter.handleRxIntr, RxAdapter.rxTurns, List.filterMap_eq_flatMap_toList]

end Reception
end Ps2Eth.Smap
