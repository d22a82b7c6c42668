import Ps2Eth.Smap.ThreadMoves

/-!
# The transmit wake-up

A frame waiting in the queue is sent because `HandleTxReqs` runs again: an XMIT
event is pending, or the TXDNV interrupt of a frame in flight will bring it. The
invariant says of every place in `IntrHandlerThread` which of these is ahead.

Three branches lose it. `SMAPXmit` finds no link and no published packet, and
leaves its frame. The thread discards events before the device is initialised.
And the `HandleTxIntr` that follows `HandleTxReqs` reaps the last frame in
flight: with nothing in flight TXDNV stays disabled, whatever is queued.
-/

namespace Ps2Eth.Smap

/-- The bytes of the frame handed over. -/
def OutputCall.size (call : OutputCall) : Nat :=
  if call.len < call.totLen then call.totLen else call.len

/-- Frames have between one byte and the size of the transmit memory. -/
def fitsTx (size : Nat) : Prop := 0 < size ∧ size ≤ smapTxBufsize

/-- The lengths in the driver's hands are those of frames. -/
structure State.Sized (state : State) : Prop where
  queued : ∃ pbufs, state.queue.Queued pbufs ∧
    ∀ pbuf ∈ pbufs, fitsTx (state.queue.pbufs pbuf).len
  enq : ∀ tx, state.tcpip = .enq tx → fitsTx (state.queue.pbufs tx).len
  handler : ∀ data length, state.handler = .publish data length ∨ state.handler = .test data length →
    fitsTx length

/-- A fresh driver has no lengths in its hands. -/
theorem fresh_sized {state : State} (fresh : Fresh state) : state.Sized where
  queued := ⟨[], fresh.txTail, by simp⟩
  enq := by simp [fresh.tcpip]
  handler := by simp [fresh.handler]

/-- The frames handed over are frames. -/
def SizedAction (action : Action) : Prop := ∀ call, action = .output call → fitsTx call.size

/-- A step leaves the length of a pbuf alone or makes it that of a frame. -/
theorem moves_len {state next : State} {action : Action} (sized : SizedAction action)
    (moves : Moves state action next) (pbuf : PbufPtr) :
    (next.queue.pbufs pbuf).len = (state.queue.pbufs pbuf).len ∨
      fitsTx (next.queue.pbufs pbuf).len := by
  cases moves with
  | linked | unlinked | signal | take | leave | drain | drained | drainEmpty | handleTxReqs
    | handleTxIntr | peek | nothing | publish | fits | dropped | full | copy | bd | unpublish
    | unlinkEmpty | reap | reaped | complete | link | setEvents | waitEvents => exact Or.inl rfl
  | drainUnlink | unlink => exact Or.inl (by rw [TxQueue.unlinkTail_pbufs])
  | refused => exact Or.inl (content_len (TxQueue.pbufRef_content _ _ _))
  | drainFree | free => exact Or.inl (content_len (TxQueue.pbufFree_content _ _ _))
  | drainClear | clear => exact Or.inl (content_len (TxQueue.setNext_content _ _ _ _))
  | enq => exact Or.inl (content_len (TxQueue.enQTxPacket_content _ _ _))
  | @whole call here single =>
    have fits := sized call rfl
    simp only [OutputCall.size, single, ↓reduceIte] at fits
    have filled : (((state.queue.fill call).pbufRef call.pOutput).pbufs pbuf).len =
        ((state.queue.fill call).pbufs pbuf).len := content_len (TxQueue.pbufRef_content _ _ _)
    by_cases same : pbuf = call.pOutput
    · have stored : ((state.queue.fill call).pbufs pbuf).len = call.len := by
        simp only [TxQueue.fill, TxQueue.store, same, Function.update_self]
      apply Or.inr
      change fitsTx (((state.queue.fill call).pbufRef call.pOutput).pbufs pbuf).len
      rw [filled, stored]
      exact fits
    · apply Or.inl
      apply filled.trans
      simp only [TxQueue.fill, TxQueue.store, Function.update_of_ne same]
  | @coalesced call copy here split given other unused =>
    have fits := sized call rfl
    simp only [OutputCall.size, split, ↓reduceIte] at fits
    by_cases same : pbuf = copy
    · apply Or.inr
      simp only [TxQueue.store, same, Function.update_self]
      exact fits
    · apply Or.inl
      apply content_len
      rw [TxQueue.store_content fun here => absurd here same, TxQueue.pbufFree_content,
        TxQueue.pbufRef_content]

/-- A step puts no pbuf into the queue but the one the TCP/IP thread has ready. -/
theorem moves_members {pbufs : List PbufPtr} {state next : State} {action : Action}
    (queued : state.queue.Queued pbufs) (covered : state.Covered pbufs)
    (moves : Moves state action next) :
    ∃ after, next.queue.Queued after ∧
      ∀ pbuf ∈ after, pbuf ∈ pbufs ∨ state.tcpip = .enq pbuf := by
  have stay : ∀ pbuf ∈ pbufs, pbuf ∈ pbufs ∨ state.tcpip = .enq pbuf := fun _ => Or.inl
  cases moves with
  | linked | unlinked | signal | take | leave | drain | drained | drainEmpty | handleTxReqs
    | handleTxIntr | peek | nothing | publish | fits | dropped | full | copy | bd | unpublish
    | unlinkEmpty | reap | reaped | complete | link | setEvents | waitEvents =>
    exact ⟨pbufs, queued, stay⟩
  | refused | whole | drainFree | free => exact ⟨pbufs, by simpa using queued, stay⟩
  | coalesced here split given other unused =>
    exact ⟨pbufs, (TxQueue.store_queued _ (covered.unused unused).1).mpr (by simpa using queued), stay⟩
  | enq here =>
    obtain ⟨longer, after, inside⟩ := TxQueue.enQTxPacket_queued _ queued
    refine ⟨longer, after, ?_⟩
    intro pbuf member
    rcases inside pbuf member with old | new
    · exact Or.inl old
    · exact Or.inr (new ▸ here)
  | drainUnlink here oldest | unlink here oldest =>
    obtain ⟨rest, shorter, rfl, after, early⟩ := unlinkTail_shorter queued oldest
    exact ⟨shorter, after, fun pbuf member => Or.inl (List.mem_cons_of_mem _ (early.subset member))⟩
  | drainClear | clear =>
    obtain ⟨shorter, after, early⟩ := TxQueue.setNext_none_queued _ queued
    exact ⟨shorter, after, fun pbuf member => Or.inl (early.subset member)⟩

/-- Every hand-over of a frame keeps the lengths those of frames.

Proof: the length of a pbuf changes only where a call fills it, and then it is that of the
frame handed over. So the pbufs of the queue, the one to be queued and the one that the
handler looked at all have the length of a frame. -/
theorem moves_sized {state next : State} {action : Action} (sized : state.Sized)
    (held : state.Held) (given : SizedAction action) (moves : Moves state action next) :
    next.Sized := by
  obtain ⟨⟨pbufs, queued, lengths⟩, enq, handler⟩ := sized
  obtain ⟨members, chain, covered⟩ := held
  obtain rfl : members = pbufs := Linked.chain_unique chain queued
  have kept (pbuf : PbufPtr) (fits : fitsTx (state.queue.pbufs pbuf).len) :
      fitsTx (next.queue.pbufs pbuf).len := by
    rcases moves_len given moves pbuf with same | new
    · exact same ▸ fits
    · exact new
  constructor
  · obtain ⟨after, chainAfter, inside⟩ := moves_members queued covered moves
    refine ⟨after, chainAfter, ?_⟩
    intro pbuf member
    apply kept pbuf
    rcases inside pbuf member with old | new
    · exact lengths pbuf old
    · exact enq pbuf new
  · intro tx waiting
    cases moves with
    | handleTxReqs | handleTxIntr | peek | nothing | publish | fits | dropped | full | copy | bd
      | unpublish | unlink | unlinkEmpty | clear | free | reap | reaped | complete | link
      | setEvents | waitEvents | refused => exact kept tx (enq tx waiting)
    | @whole call here single =>
      have size := given call rfl
      simp only [OutputCall.size, single, ↓reduceIte] at size
      cases waiting
      change fitsTx (((state.queue.fill call).pbufRef call.pOutput).pbufs call.pOutput).len
      rw [content_len (TxQueue.pbufRef_content _ _ _)]
      simpa only [TxQueue.fill, TxQueue.store, Function.update_self] using size
    | @coalesced call copy here split _ _ _ =>
      have size := given call rfl
      simp only [OutputCall.size, split, ↓reduceIte] at size
      cases waiting
      simpa only [TxQueue.store, Function.update_self, OutputCall.copied] using size
    | linked | unlinked | signal | take | leave | drain | drained | drainUnlink | drainEmpty
      | drainClear | drainFree | enq => cases waiting
  · intro data length here
    cases moves with
    | refused | coalesced | whole | enq | linked | unlinked | signal | take | leave | drain | drained
      | drainUnlink | drainEmpty | drainClear | drainFree | complete | link | setEvents
      | waitEvents | reap => exact handler data length here
    | @peek oldest dmaOk there tail some =>
      rw [TxQueue.Queued, tail] at queued
      obtain ⟨rest, rfl, _⟩ := Linked.chain_some queued
      have fits := lengths oldest List.mem_cons_self
      rcases here with this | this
      · cases this
        exact fits
      · cases this
    | publish there =>
      rcases here with this | this
      · cases this
      · cases this
        exact handler _ _ (Or.inl there)
    | handleTxReqs | handleTxIntr | nothing | fits | dropped | full | copy | bd | unpublish | unlink
      | unlinkEmpty | clear | free | reaped => rcases here with this | this <;> cases this

/-- `HandleTxReqs` is due whatever the thread has in hand: nothing is queued, a
call of `SMapLowLevelOutput` is under way, or an event is pending that brings it.
`latched` tells whether TXDNV is latched in `SPD_R_INTR_STAT`. -/
def State.Due (state : State) (latched : Bool) : Prop :=
  state.queue.txTail = none ∨ state.tcpip ≠ .idle ∨ state.events.xmit = true ∨
    state.events.intr = true ∧ latched = true

/-- The actions of `IntrHandlerThread` that clear no event. -/
def Action.ofHandler : Action → Bool
  | .handleTxReqs | .handleTxIntr | .handler _ | .link _ => true
  | _ => false

/-- The actions of the others. -/
def Action.ofOthers : Action → Bool
  | .output _ | .tcpip | .complete _ _ | .setEvents _ => true
  | _ => false

/-- What the thread does to the queue and to packets never takes a cause away. -/
theorem handler_due {state next : State} {action : Action} {latched : Bool}
    (ofHandler : action.ofHandler = true) (moves : Moves state action next)
    (due : state.Due latched) : next.Due latched := by
  have emptied (queue : TxQueue) (empty : queue.txTail = none) : queue.unlinkTail.2.txTail = none := by
    rw [TxQueue.unlinkTail_empty empty]
    exact empty
  cases moves with
  | unlink here oldest =>
    rcases due with empty | others
    · exact Or.inl (emptied _ empty)
    · exact Or.inr others
  | handleTxReqs | handleTxIntr | peek | nothing | publish | fits | dropped | full | copy | bd
    | unpublish | unlinkEmpty | clear | free | reap | reaped | link => exact due
  | _ => simp [Action.ofHandler] at ofHandler

/-- The others leave the thread's place and count alone and clear no event. -/
theorem others_frame {state next : State} {action : Action} (ofOthers : action.ofOthers = true)
    (moves : Moves state action next) :
    next.handler = state.handler ∧
      next.adapter.drv.numPacketsInTx = state.adapter.drv.numPacketsInTx ∧
      (state.events.intr = true → next.events.intr = true) := by
  cases moves with
  | setEvents bits => exact ⟨rfl, rfl, fun pending => by simp [EventFlag.set, pending]⟩
  | refused | coalesced | whole | enq | linked | unlinked | signal | take | leave | drain | drained
    | drainUnlink | drainEmpty | drainClear | drainFree | complete => exact ⟨rfl, rfl, id⟩
  | _ => simp [Action.ofOthers] at ofOthers

/-- A call that finds no link and no packet published: `ClearPacketQueue` is about
to return without clearing. -/
def State.Leaves (state : State) (action : Action) : Prop :=
  action = .tcpip ∧ state.tcpip = .clearTake ∧ state.adapter.drv.packetToSend = none

/-- The others keep `HandleTxReqs` due, if a call that leaves its frame is not the
only cause.

Proof: by the moves. A call under way is a cause of itself, up to its last step, where it
sets XMIT, leaves the frame to what is pending, or has emptied the queue. -/
theorem others_due {state next : State} {action : Action} {latched : Bool}
    (ofOthers : action.ofOthers = true) (sized : state.Sized) (moves : Moves state action next)
    (leaves : state.Leaves action → state.queue.txTail = none ∨ state.events.xmit = true ∨
      (state.events.intr = true ∧ latched = true))
    (due : state.Due latched) : next.Due latched := by
  have calling {other : State} (busy : other.tcpip ≠ .idle) : other.Due latched := Or.inr (Or.inl busy)
  cases moves with
  | refused | complete => exact due
  | setEvents bits =>
    rcases due with empty | busy | xmit | ⟨intr, latch⟩
    · exact Or.inl empty
    · exact calling busy
    · exact Or.inr (Or.inr (Or.inl (by simp [EventFlag.set, xmit])))
    · exact Or.inr (Or.inr (Or.inr ⟨by simp [EventFlag.set, intr], latch⟩))
  | coalesced | whole | enq | linked | unlinked | take | drain | drainUnlink | drainEmpty
    | drainClear | drainFree => exact calling (by simp)
  | signal => exact Or.inr (Or.inr (Or.inl rfl))
  | leave here quiet =>
    rcases leaves ⟨rfl, here, quiet⟩ with empty | pending
    · exact Or.inl empty
    · exact Or.inr (Or.inr pending)
  | drained here stop =>
    apply Or.inl
    obtain ⟨pbufs, queued, lengths⟩ := sized.queued
    cases pbufs with
    | nil => exact queued
    | cons oldest rest =>
      rw [sMapTxPacketNext_some queued.1] at stop
      have fits := (lengths oldest List.mem_cons_self).1
      omega
  | _ => simp [Action.ofOthers] at ofOthers

/-- `HandleTxReqs` leaves its loop with nothing queued or with a frame in
flight: a frame of proper size fits the empty transmit memory. -/
theorem txReqs_exit {state next : State} {dmaOk : Bool} (settled : Settled state)
    (sized : state.Sized) (inside : state.handler ≠ .txIntr)
    (moves : Moves state (.handler dmaOk) next) (exit : next.handler = .idle) :
    next.queue.txTail = none ∨ 0 < next.adapter.drv.numPacketsInTx := by
  cases moves with
  | nothing here stop =>
    obtain ⟨pbufs, queued, lengths⟩ := sized.queued
    cases pbufs with
    | nil => exact Or.inl queued
    | cons oldest rest =>
      rw [sMapTxPacketNext_some queued.1] at stop
      have fits := (lengths oldest List.mem_cons_self).1
      omega
  | full here full =>
    apply Or.inr
    apply Nat.pos_of_ne_zero
    intro idle
    have free := settled.accounted.idle idle
    have fits := (sized.handler _ _ (Or.inr here)).2
    change state.adapter.drv.numPacketsInTx = 0 at idle
    rcases full with ring | ⟨some, room⟩
    · simp [idle, smapBdMaxEntry] at ring
    · have rounded := sizeRounded_bounds
      rw [free] at room
      simp only [sizeRounded, smapTxBufsize] at *
      omega
  | reap here | reaped here => exact absurd here inside
  | peek | publish | fits | dropped | copy | bd | unpublish | unlink | unlinkEmpty | clear | free =>
    simp at exit

namespace Driver

/-- The frames in flight, as `NumPacketsInTx` counts them. -/
def inTx (driver : Driver) : Nat := driver.tx.adapter.drv.numPacketsInTx

/-- What the thread has in hand will bring `HandleTxReqs`: it is running, or the
events taken or a frame in flight lead to it. -/
def Ahead (driver : Driver) : Prop :=
  match driver.control with
  | .stop efBits | .start efBits | .initPhy efBits | .enableMac efBits | .dispatch efBits =>
      efBits.xmit = true ∨ (efBits.intr = true ∧ driver.intrStat.txdnv = true) ∨ 0 < driver.inTx
  | .emac3 efBits intrReg | .rxend efBits intrReg | .rxdnv efBits intrReg _
  | .txdnv efBits intrReg _ => efBits.xmit = true ∨ intrReg.txdnv = true ∨ 0 < driver.inTx
  | .txIntr _ _ | .ended => True
  | .testXmit efBits _ => efBits.xmit = true ∨ 0 < driver.inTx
  | .txReqs _ _ => driver.tx.handler ≠ .idle ∨ 0 < driver.inTx
  | .wait | .lastTxIntr _ _ | .enable _ _ | .testInTx _ _ | .turnEnd _ _ | .checkLink
  | .recoverPhy => 0 < driver.inTx

/-- Which of the two handlers the thread may be in. -/
def Phase (driver : Driver) : Prop :=
  match driver.control with
  | .txReqs _ _ => driver.tx.handler ≠ .txIntr
  | .txIntr _ _ | .lastTxIntr _ _ => driver.tx.handler = .txIntr ∨ driver.tx.handler = .idle
  | _ => driver.tx.handler = .idle

/-- With a frame in flight, TXDNV is enabled or an interrupt pending, once a turn
of the initialised device has been completed. -/
def Armed (driver : Driver) : Prop :=
  match driver.control with
  | .wait => driver.smapIsInitialized = true → 0 < driver.inTx →
      driver.intrMask.txdnv = true ∨ driver.tx.events.intr = true
  | .turnEnd _ _ | .checkLink | .recoverPhy => 0 < driver.inTx →
      driver.intrMask.txdnv = true ∨ driver.tx.events.intr = true
  | .initPhy _ => driver.smapIsInitialized = false
  | _ => True

/-- The wake-up invariant: where the handler may stand, what is due while frames are
queued, and what keeps TXDNV enabled or INTR pending. -/
structure Wakes (driver : Driver) : Prop where
  phase : driver.Phase
  due : driver.tx.Due driver.intrStat.txdnv ∨ driver.Ahead
  armed : driver.Armed

/-- The thread goes back to waiting without serving the events it took. -/
def Discards (driver : Driver) (outcome : Outcome) : Prop :=
  match driver.control with
  | .dispatch _ => driver.smapIsInitialized = false
  | .initPhy _ => outcome.phy = .returns true ∧ driver.netDevStopFlag = true
  | _ => False

/-- The `HandleTxIntr` at the end of a turn reaps the last frame in flight. -/
def ReapsLast (driver : Driver) : Prop :=
  match driver.control with
  | .lastTxIntr _ _ => driver.tx.handler = .txIntr ∧
      ∃ adapter, driver.tx.adapter.reap = some adapter ∧ adapter.drv.numPacketsInTx = 0
  | _ => False

/-- No branch that loses the wake-up is taken with a frame left to send. -/
structure KeepsWakeUp (driver : Driver) (action : DriverAction) : Prop where
  leaves : action = .tcpip → driver.tx.Leaves .tcpip → driver.tx.queue.txTail = none ∨
    driver.tx.events.xmit = true ∨
    (driver.tx.events.intr = true ∧ driver.intrStat.txdnv = true) ∨ driver.Ahead
  discards : ∀ outcome, action = .thread outcome → driver.Discards outcome →
    driver.tx.Due driver.intrStat.txdnv ∨ 0 < driver.inTx
  reaps : ∀ outcome, action = .thread outcome → driver.ReapsLast →
    driver.tx.Due driver.intrStat.txdnv

/-- Only `HandleTxIntr` and the descriptor update of `HandleTxReqs` change the
number of frames in flight. -/
theorem count_of_handler {state next : State} {dmaOk : Bool} (moves : Moves state (.handler dmaOk) next)
    (inside : state.handler = .txIntr) :
    (next.handler = .txIntr ∧ state.adapter.reap = some next.adapter) ∨
      (next.handler = .idle ∧ next.adapter = state.adapter) := by
  cases moves with
  | reap here done => exact Or.inl ⟨here, done⟩
  | reaped => exact Or.inr ⟨rfl, rfl⟩
  | peek here | nothing here | publish here | fits here | dropped here | full here | copy here
    | bd here | unpublish here | unlink here | unlinkEmpty here | clear here | free here =>
    simp [here] at inside

/-- `HandleTxReqs` does not turn into `HandleTxIntr`. -/
theorem handler_stays {state next : State} {dmaOk : Bool} (moves : Moves state (.handler dmaOk) next)
    (outside : state.handler ≠ .txIntr) : next.handler ≠ .txIntr := by
  cases moves with
  | reap here | reaped here => exact absurd here outside
  | peek | nothing | publish | fits | dropped | full | copy | bd | unpublish | unlink | unlinkEmpty
    | clear | free => simp

/-- An initialised device is served: TXDNV is among the sources taken, or not latched. -/
theorem dispatch_wakes {driver next : Driver} {outcome : Outcome} {efBits : EventFlag}
    (wakes : driver.Wakes) (here : driver.control = .dispatch efBits)
    (running : driver.smapIsInitialized = true)
    (taken : driver.stepThread outcome = some next) : next.Wakes := by
  obtain ⟨phase, due, _⟩ := wakes
  simp only [stepThread, here, if_pos running] at taken
  simp only [Phase, here] at phase
  simp only [Ahead, here] at due
  by_cases sources : efBits.intr && driver.intrStat != .none
  · rw [if_pos sources] at taken
    cases taken
    refine ⟨phase, ?_, trivial⟩
    simp only [Ahead]
    tauto
  · rw [if_neg sources] at taken
    cases taken
    have unlatched : ¬ (efBits.intr = true ∧ driver.intrStat.txdnv = true) := by
      rintro ⟨intr, latched⟩
      apply sources
      simp only [intr, Bool.true_and, bne_iff_ne]
      intro none
      simp [none, IntrBits.none] at latched
    refine ⟨phase, ?_, trivial⟩
    simp only [Ahead]
    tauto

/-- The thread keeps the wake-up while it serves the device: `HandleTxReqs` runs, or
leaves a frame in flight.

Proof: by the places of the thread. From `HandleTxReqs` it comes with an empty queue or
with a frame in flight; what then counts is the last `HandleTxIntr`, which may take the
last frame back, and there the hypothesis is that something is pending. -/
theorem serving_wakes {driver next : Driver} {outcome : Outcome} (wakes : driver.Wakes)
    (settled : Settled driver.tx) (sized : driver.tx.Sized)
    (admitted : driver.KeepsWakeUp (.thread outcome)) (serves : driver.control.serving = true)
    (taken : driver.stepThread outcome = some next) : next.Wakes := by
  obtain ⟨phase, due, _⟩ := wakes
  cases here : driver.control with
  | emac3 efBits intrReg | rxend efBits intrReg | rxdnv efBits intrReg resetCounter
    | enable efBits resetCounter =>
    simp only [stepThread, here] at taken
    simp only [Phase, here] at phase
    simp only [Ahead, here] at due
    cases taken
    exact ⟨phase, due, trivial⟩
  | txdnv efBits intrReg resetCounter =>
    simp only [stepThread, here] at taken
    simp only [Phase, here] at phase
    simp only [Ahead, here] at due
    by_cases raised : intrReg.txdnv
    · rw [if_pos raised] at taken
      obtain ⟨tx, moves, rfl⟩ := lift_some taken
      cases moves with
      | handleTxIntr => exact ⟨Or.inl rfl, Or.inr trivial, trivial⟩
    · rw [if_neg raised] at taken
      cases taken
      refine ⟨phase, ?_, trivial⟩
      simp only [Ahead]
      tauto
  | txIntr efBits resetCounter =>
    simp only [stepThread, here] at taken
    simp only [Phase, here] at phase
    by_cases done : driver.tx.handler = .idle
    · rw [if_pos done] at taken
      cases taken
      exact ⟨done, Or.inr (Or.inl rfl), trivial⟩
    · rw [if_neg done] at taken
      obtain ⟨tx, moves, rfl⟩ := lift_some taken
      have inside := phase.resolve_right done
      refine ⟨?_, Or.inr trivial, trivial⟩
      rcases count_of_handler moves inside with ⟨again, _⟩ | ⟨idle, _⟩
      · exact Or.inl again
      · exact Or.inr idle
  | testXmit efBits resetCounter =>
    simp only [stepThread, here] at taken
    simp only [Ahead, here] at due
    by_cases xmit : efBits.xmit
    · rw [if_pos xmit] at taken
      obtain ⟨tx, moves, rfl⟩ := lift_some taken
      cases moves with
      | handleTxReqs => exact ⟨by simp [Phase], Or.inr (Or.inl (by simp)), trivial⟩
    · rw [if_neg xmit] at taken
      obtain ⟨tx, moves, rfl⟩ := lift_some taken
      cases moves with
      | handleTxIntr =>
        refine ⟨Or.inl rfl, ?_, trivial⟩
        rcases due with cause | taking | flying
        · exact Or.inl cause
        · exact absurd taking xmit
        · exact Or.inr flying
  | txReqs efBits resetCounter =>
    simp only [stepThread, here] at taken
    simp only [Phase, here] at phase
    simp only [Ahead, here] at due
    by_cases done : driver.tx.handler = .idle
    · rw [if_pos done] at taken
      obtain ⟨tx, moves, rfl⟩ := lift_some taken
      cases moves with
      | handleTxIntr =>
        refine ⟨Or.inl rfl, ?_, trivial⟩
        rcases due with cause | running | flying
        · exact Or.inl cause
        · exact absurd done running
        · exact Or.inr flying
    · rw [if_neg done] at taken
      obtain ⟨tx, moves, rfl⟩ := lift_some taken
      refine ⟨handler_stays moves phase, ?_, trivial⟩
      by_cases exit : tx.handler = .idle
      · rcases txReqs_exit settled sized phase moves exit with empty | flying
        · exact Or.inl (Or.inl empty)
        · exact Or.inr (Or.inr flying)
      · exact Or.inr (Or.inl exit)
  | lastTxIntr efBits resetCounter =>
    simp only [stepThread, here] at taken
    simp only [Phase, here] at phase
    simp only [Ahead, here] at due
    by_cases done : driver.tx.handler = .idle
    · rw [if_pos done] at taken
      cases taken
      exact ⟨done, due, trivial⟩
    · rw [if_neg done] at taken
      obtain ⟨tx, moves, rfl⟩ := lift_some taken
      have inside := phase.resolve_right done
      rcases count_of_handler moves inside with ⟨again, reaped⟩ | ⟨idle, same⟩
      · refine ⟨Or.inl again, ?_, trivial⟩
        by_cases last : tx.adapter.drv.numPacketsInTx = 0
        · have cause := admitted.reaps outcome rfl (by
            simp only [ReapsLast, here]
            exact ⟨inside, tx.adapter, reaped, last⟩)
          exact Or.inl (handler_due rfl moves cause)
        · exact Or.inr (Nat.pos_of_ne_zero last)
      · refine ⟨Or.inr idle, ?_, trivial⟩
        rcases due with cause | flying
        · exact Or.inl (handler_due rfl moves cause)
        · apply Or.inr
          simp only [Ahead, inTx, same]
          exact flying
  | wait | stop | start | initPhy | enableMac | dispatch | testInTx | turnEnd | checkLink | recoverPhy
    | ended =>
    rw [here] at serves
    cases serves

/-- The thread keeps the wake-up.

Proof: by the moves of the thread. Events are taken where it wakes up, and then served or
discarded; the branches that discard them are those that the hypothesis speaks of. -/
theorem thread_wakes {driver next : Driver} {outcome : Outcome} (wakes : driver.Wakes)
    (settled : Settled driver.tx) (sized : driver.tx.Sized)
    (admitted : driver.KeepsWakeUp (.thread outcome))
    (taken : driver.stepThread outcome = some next) : next.Wakes := by
  have serving (serves : driver.control.serving = true) : next.Wakes :=
    serving_wakes wakes settled sized admitted serves taken
  obtain ⟨phase, due, armed⟩ := id wakes
  cases thread_moves taken with
  | wakes here =>
    simp only [Phase, here] at phase
    simp only [Ahead, here] at due
    refine ⟨phase, ?_, trivial⟩
    simp only [Ahead, State.Due, inTx] at due ⊢
    tauto
  | stops here | passesStop here | passesStart here | phyDone here | enables here =>
    simp only [Phase, here] at phase
    simp only [Ahead, here] at due
    exact ⟨phase, due, trivial⟩
  | starts here asked idle =>
    simp only [Phase, here] at phase
    simp only [Ahead, here] at due
    exact ⟨phase, due, idle⟩
  | phyFails here =>
    simp only [Phase, here] at phase
    exact ⟨phase, Or.inr trivial, trivial⟩
  | aborts here phy stop =>
    simp only [Phase, here] at phase
    simp only [Armed, here] at armed
    have discards : driver.Discards outcome := by
      simp only [Discards, here]
      exact ⟨phy, stop⟩
    exact ⟨phase, admitted.discards outcome rfl discards,
      fun initialised => absurd (armed.symm.trans initialised) Bool.false_ne_true⟩
  | serves here running => exact dispatch_wakes wakes here running taken
  | discards here idle =>
    simp only [Phase, here] at phase
    have discards : driver.Discards outcome := by
      simp only [Discards, here]
      exact idle
    exact ⟨phase, admitted.discards outcome rfl discards,
      fun on => absurd (idle.symm.trans on) Bool.false_ne_true⟩
  | works here => exact serving here
  | unmasks here => exact serving (by rw [here]; rfl)
  | testsInTx here =>
    simp only [Phase, here] at phase
    simp only [Ahead, here] at due
    refine ⟨phase, due, fun flying => Or.inl ?_⟩
    simp only [inTx] at flying
    simp [flying]
  | turnEnds here there =>
    simp only [Phase, here] at phase
    simp only [Ahead, here] at due
    simp only [Armed, here] at armed
    rcases there with rfl | rfl
    · exact ⟨phase, due, fun _ => armed⟩
    · exact ⟨phase, due, armed⟩
  | linkStays here | recovered here =>
    simp only [Phase, here] at phase
    simp only [Ahead, here] at due
    simp only [Armed, here] at armed
    exact ⟨phase, due, fun _ => armed⟩
  | phyWrites here | linkLost here | recoverWrites here =>
    simp only [Phase, here] at phase
    simp only [Ahead, here] at due
    simp only [Armed, here] at armed
    exact ⟨phase, due, armed⟩

/-- The others keep the wake-up, unless a call leaves its frame.

Proof: the others do not change the place of the thread or what is in flight, so all that
was ahead stays ahead. They may queue a frame, and then set XMIT or leave what was
pending. -/
theorem others_wake {driver : Driver} {tx : State} {action : Action} {mask : IntrBits}
    (wakes : driver.Wakes) (sized : driver.tx.Sized) (ofOthers : action.ofOthers = true)
    (moves : Moves driver.tx action tx)
    (masked : mask = driver.intrMask ∨ tx.events.intr = true)
    (leaves : driver.tx.Leaves action → driver.tx.queue.txTail = none ∨
      driver.tx.events.xmit = true ∨
      (driver.tx.events.intr = true ∧ driver.intrStat.txdnv = true) ∨ driver.Ahead) :
    Wakes { driver with tx := tx, intrMask := mask } := by
  obtain ⟨phase, due, armed⟩ := wakes
  obtain ⟨handler, count, intr⟩ := others_frame ofOthers moves
  have ahead : driver.Ahead → Ahead { driver with tx := tx, intrMask := mask } := by
    simp only [Ahead, inTx, handler, count]
    exact id
  have armedAfter (before : 0 < driver.inTx → driver.intrMask.txdnv = true ∨
      driver.tx.events.intr = true) (flying : 0 < inTx { driver with tx := tx, intrMask := mask }) :
      mask.txdnv = true ∨ tx.events.intr = true := by
    rcases masked with rfl | pending
    · simp only [inTx, count] at flying
      exact (before flying).imp_right intr
    · exact Or.inr pending
  constructor
  · simp only [Phase, handler] at phase ⊢
    exact phase
  · by_cases already : driver.Ahead
    · exact Or.inr (ahead already)
    · apply Or.inl
      apply others_due ofOthers sized moves _ (due.resolve_right already)
      intro leaving
      rcases leaves leaving with empty | xmit | intr | inHand
      · exact Or.inl empty
      · exact Or.inr (Or.inl xmit)
      · exact Or.inr (Or.inr intr)
      · exact absurd inHand already
  · cases here : driver.control with
    | wait =>
      simp only [Armed, here] at armed ⊢
      exact fun initialised => armedAfter (armed initialised)
    | turnEnd | checkLink | recoverPhy =>
      simp only [Armed, here] at armed ⊢
      exact armedAfter armed
    | initPhy =>
      simp only [Armed, here] at armed ⊢
      exact armed
    | _ => trivial

/-- Latching sources keeps the wake-up. -/
theorem raise_wakes {driver : Driver} (sources : IntrBits) (wakes : driver.Wakes) :
    Wakes { driver with intrStat := driver.intrStat.union sources } := by
  obtain ⟨phase, due, armed⟩ := wakes
  refine ⟨phase, ?_, armed⟩
  have latched : driver.intrStat.txdnv = true → (driver.intrStat.union sources).txdnv = true := by
    intro before
    simp [IntrBits.union, before]
  rcases due with (empty | busy | xmit | ⟨intr, latch⟩) | inHand
  · exact Or.inl (Or.inl empty)
  · exact Or.inl (Or.inr (Or.inl busy))
  · exact Or.inl (Or.inr (Or.inr (Or.inl xmit)))
  · exact Or.inl (Or.inr (Or.inr (Or.inr ⟨intr, latched latch⟩)))
  · apply Or.inr
    cases here : driver.control with
    | stop | start | initPhy | enableMac | dispatch =>
      simp only [Ahead, here] at inHand ⊢
      exact inHand.imp_right (Or.imp_left fun pending => ⟨pending.1, latched pending.2⟩)
    | txIntr | ended => trivial
    | _ =>
      simp only [Ahead, here] at inHand ⊢
      exact inHand

/-- A lifted action is a step of the transmit machine inside. -/
theorem lift_tx {driver next : Driver} {action : Action} {control : Control}
    (taken : driver.lift action control = some next) : driver.tx.step action = some next.tx := by
  obtain ⟨tx, moved, rfl⟩ := Option.map_eq_some_iff.mp taken
  exact moved

/-- In the transmit machine a step of the thread is one step, not a hand-over, or
none. -/
theorem thread_tx {driver next : Driver} {outcome : Outcome}
    (taken : driver.stepThread outcome = some next) :
    next.tx = driver.tx ∨
      ∃ action, driver.tx.step action = some next.tx ∧ ∀ call, action ≠ .output call := by
  cases thread_moves taken with
  | wakes here idle => exact Or.inr ⟨.waitEvents, if_pos idle, by rintro call ⟨⟩⟩
  | stops here asked running idle => exact Or.inr ⟨.link false, if_pos idle, by rintro call ⟨⟩⟩
  | linkLost here down idle => exact Or.inr ⟨.link false, if_pos idle, by rintro call ⟨⟩⟩
  | @phyWrites _ linkStatus here phy idle | @recoverWrites linkStatus here phy idle =>
    exact Or.inr ⟨.link linkStatus, if_pos idle, by rintro call ⟨⟩⟩
  | works here there moved =>
    rcases moved with same | ⟨action, serves, moved⟩
    · exact Or.inl same
    · refine Or.inr ⟨action, moved, ?_⟩
      rintro call rfl
      cases serves
  | _ => exact Or.inl rfl

/-- In the transmit machine a step of the driver is one step, a hand-over only if
it is one here, or none. -/
theorem step_tx {driver next : Driver} {action : DriverAction}
    (taken : driver.step action = some next) :
    next.tx = driver.tx ∨ ∃ txAction, driver.tx.step txAction = some next.tx ∧
      ∀ call, txAction = .output call → action = .output call := by
  cases action with
  | output call =>
    refine Or.inr ⟨_, lift_tx taken, ?_⟩
    rintro _ ⟨⟩
    rfl
  | tcpip => exact Or.inr ⟨_, lift_tx taken, by simp⟩
  | complete index ctrlStat => exact Or.inr ⟨_, lift_tx taken, by simp⟩
  | linkCheckTimer | smapStart | smapStop => exact Or.inr ⟨_, lift_tx taken, by simp⟩
  | dev9IntrCb =>
    simp only [step] at taken
    split at taken
    · cases taken
    · obtain ⟨tx, moved, rfl⟩ := Option.map_eq_some_iff.mp taken
      exact Or.inr ⟨_, moved, by simp⟩
  | raise | smapStopFlag =>
    cases taken
    exact Or.inl rfl
  | thread outcome =>
    rcases thread_tx taken with same | ⟨txAction, moved, plain⟩
    · exact Or.inl same
    · exact Or.inr ⟨txAction, moved, fun call is => absurd is (plain call)⟩

/-- Seen from the transmit machine, a run of the driver is one of its runs. -/
theorem run_tx {steps : List (Driver × DriverAction)} {driver : Driver}
    (run : DriverRun steps driver) : ∃ seen, TxRun seen driver.tx := by
  apply Runs.run_view _ _ run
  · intro start waiting
    exact waiting.tx
  · intro before action next taken
    rcases step_tx taken with same | ⟨txAction, moved, _⟩
    · exact Or.inl same
    · exact Or.inr ⟨txAction, moved⟩

/-- Whatever the thread does between, the accounts hold in every state reached. -/
theorem run_accounts {steps : List (Driver × DriverAction)} {driver : Driver}
    (run : DriverRun steps driver) : Settled driver.tx := by
  obtain ⟨seen, reached⟩ := run_tx run
  exact run_settled reached

/-- The invariant of the driver: the accounts, the references, the lengths and the
wake-up. -/
structure Sound (driver : Driver) : Prop where
  settled : Settled driver.tx
  held : driver.tx.Held
  sized : driver.tx.Sized
  wakes : driver.Wakes

/-- A driver that waits with nothing to do is sound. -/
theorem waiting_sound {driver : Driver} (waiting : Waiting driver) : driver.Sound where
  settled := fresh_settled waiting.tx
  held := fresh_held waiting.tx
  sized := fresh_sized waiting.tx
  wakes := by
    obtain ⟨memory, up, initialised⟩ := waiting.tx.adapter
    refine ⟨?_, Or.inl (Or.inl waiting.tx.txTail), ?_⟩
    · simp only [Phase, waiting.control]
      exact waiting.tx.handler
    · simp [Armed, waiting.control, inTx, initialised, smapInit]

/-- The frames handed over are frames. -/
def HandsFrame (_ : Driver) (action : DriverAction) : Prop :=
  ∀ call, action = .output call → fitsTx call.size

/-- Every step that hands over frames and keeps the wake-up keeps the invariant.

Proof: the transmit part of the invariant is kept by every step of the two threads. The
wake-up is looked at action by action: those of other parties only add events, and the
thread's own steps are followed in `thread_wakes`. -/
theorem step_sound {driver next : Driver} {action : DriverAction} (sound : driver.Sound)
    (frame : driver.HandsFrame action) (admitted : driver.KeepsWakeUp action)
    (taken : driver.step action = some next) : next.Sound := by
  obtain ⟨settled, held, sized, wakes⟩ := sound
  have transmit : Settled next.tx ∧ next.tx.Held ∧ next.tx.Sized := by
    rcases step_tx taken with same | ⟨txAction, moved, only⟩
    · rw [same]
      exact ⟨settled, held, sized⟩
    · have moves := step_moves moved
      exact ⟨moves_settled settled moves, moves_held held moves,
        moves_sized sized held (fun call is => frame call (only call is)) moves⟩
  refine ⟨transmit.1, transmit.2.1, transmit.2.2, ?_⟩
  cases action with
  | output call =>
    obtain ⟨tx, moves, rfl⟩ := lift_some taken
    exact others_wake wakes sized rfl moves (Or.inl rfl) fun leaves => by simp [State.Leaves] at leaves
  | tcpip =>
    obtain ⟨tx, moves, rfl⟩ := lift_some taken
    exact others_wake wakes sized rfl moves (Or.inl rfl) (admitted.leaves rfl)
  | complete index ctrlStat =>
    obtain ⟨tx, moves, rfl⟩ := lift_some taken
    exact others_wake wakes sized rfl moves (Or.inl rfl) fun leaves => by simp [State.Leaves] at leaves
  | linkCheckTimer | smapStart | smapStop =>
    obtain ⟨tx, moves, rfl⟩ := lift_some taken
    exact others_wake wakes sized rfl moves (Or.inl rfl) fun leaves => by simp [State.Leaves] at leaves
  | dev9IntrCb =>
    simp only [step] at taken
    split at taken
    · cases taken
    · obtain ⟨tx, moves, rfl⟩ := lift_some taken
      have pending : tx.events.intr = true := by
        cases moves with
        | setEvents => simp [EventFlag.set]
      exact others_wake wakes sized rfl moves (Or.inr pending) fun leaves => by
        simp [State.Leaves] at leaves
  | raise sources =>
    cases taken
    exact raise_wakes sources wakes
  | smapStopFlag =>
    cases taken
    exact ⟨wakes.phase, wakes.due, wakes.armed⟩
  | thread outcome => exact thread_wakes wakes settled sized admitted taken

/-- No lost wake-up: when the thread waits with the device initialised and the
link up, a frame is queued and no call is under way, then an event that runs
`HandleTxReqs` may come of itself: INTR or XMIT is pending, or a frame is in
flight with TXDNV enabled. -/
def NoLostWakeUp (driver : Driver) : Prop :=
  driver.control = .wait → driver.smapIsInitialized = true →
    driver.tx.adapter.drv.linkStatus = true → driver.tx.tcpip = .idle →
    driver.tx.queue.txTail ≠ none →
    driver.tx.events.intr = true ∨ driver.tx.events.xmit = true ∨
      0 < driver.inTx ∧ driver.intrMask.txdnv = true

/-- The invariant excludes a lost wake-up. -/
theorem Sound.noLostWakeUp {driver : Driver} (sound : driver.Sound) : driver.NoLostWakeUp := by
  intro here initialised _ idle some
  obtain ⟨_, due, armed⟩ := sound.wakes
  simp only [Ahead, here] at due
  simp only [Armed, here] at armed
  rcases due with (empty | busy | xmit | ⟨intr, _⟩) | flying
  · exact absurd empty some
  · exact absurd idle busy
  · exact Or.inr (Or.inl xmit)
  · exact Or.inl intr
  · rcases armed initialised flying with enabled | intr
    · exact Or.inr (Or.inr ⟨flying, enabled⟩)
    · exact Or.inl intr

/-- No wake-up is lost in any state reached by a run that takes no losing branch.

Proof: by induction on the run, with `Sound` as the invariant. A step of the transmit side
keeps the accounts, the references and the lengths, and what remains is the wake-up,
action by action; the losing branches are the only ones that do not keep it. In the state
reached, `Wakes` leaves a queued frame only an event that is pending or one that is still
to come. -/
theorem no_lost_wakeUp {steps : List (Driver × DriverAction)} {driver : Driver}
    (run : DriverRun steps driver) (frames : Runs.Meets HandsFrame steps)
    (admitted : Runs.Meets KeepsWakeUp steps) : driver.NoLostWakeUp := by
  have sound : driver.Sound := by
    refine Runs.invariant (fun _ driver => driver.Sound) ?_ ?_ run
      ((Runs.meets_and _ _ _).mpr ⟨frames, admitted⟩)
    · intro start waiting
      exact waiting_sound waiting
    · rintro earlier before action next before_sound ⟨frame, keeps⟩ taken
      exact step_sound before_sound frame keeps taken
  exact sound.noLostWakeUp

/-- An initialised driver with the link up. -/
def initialised : Driver where
  tx := freshDriver.setLinkStatus true
  control := .wait
  smapIsInitialized := true
  netDevStopFlag := false
  intrStat := .none
  intrMask := enableMask2 .none
  counter := 3

/-- An initialised driver with the link up is one that a run can start from. -/
theorem initialised_waiting : Waiting initialised where
  tx := ⟨⟨_, true, rfl⟩, rfl, rfl, fun _ => rfl, rfl, rfl⟩
  control := rfl

/-- A call of `SMapLowLevelOutput`, as actions of the driver. -/
def callActions (call : OutputCall) : List DriverAction :=
  .output call :: List.replicate 3 .tcpip

/-- The next steps of `IntrHandlerThread`, all answers favourable. -/
def threadActions (turns : Nat) : List DriverAction :=
  List.replicate turns (.thread ⟨true, true, true, .returns true⟩)

/-- The call in an action, if any, hands over a frame. -/
def handsFrame (action : DriverAction) : Bool :=
  match action with
  | .output call => 0 < call.size && call.size ≤ smapTxBufsize
  | _ => true

/-- The test on an action implies its condition. -/
theorem handsFrame_of {driver : Driver} {action : DriverAction} (checked : handsFrame action = true) :
    driver.HandsFrame action := by
  rintro call rfl
  simpa [handsFrame, fitsTx] using checked

/-- None of the branches that may lose a wake-up is near. -/
def keepsClear (driver : Driver) : Bool :=
  match driver.control with
  | .initPhy _ => false
  | _ => driver.tx.tcpip != .clearTake && driver.smapIsInitialized && driver.tx.adapter.reap.isNone

/-- The test on a state implies that its next step loses no wake-up. -/
theorem keepsWakeUp_of {driver : Driver} {action : DriverAction}
    (clear : driver.keepsClear = true) : driver.KeepsWakeUp action := by
  have starting : ∀ efBits, driver.control ≠ .initPhy efBits := by
    intro efBits here
    simp [keepsClear, here] at clear
  have away : (driver.tx.tcpip ≠ .clearTake ∧ driver.smapIsInitialized = true) ∧
      driver.tx.adapter.reap = none := by
    cases here : driver.control with
    | initPhy efBits => exact absurd here (starting efBits)
    | _ => simpa [keepsClear, here] using clear
  obtain ⟨⟨elsewhere, on⟩, nothing⟩ := away
  constructor
  · rintro _ ⟨_, there, _⟩
    exact absurd there elsewhere
  · intro outcome _ discards
    cases here : driver.control with
    | initPhy efBits => exact absurd here (starting efBits)
    | dispatch => simp [Discards, here, on] at discards
    | _ => simp [Discards, here] at discards
  · intro outcome _ reaps
    cases here : driver.control with
    | lastTxIntr => simp [ReapsLast, here, nothing] at reaps
    | _ => simp [ReapsLast, here] at reaps

/-- One frame fills the transmit memory, a second one waits: TXDNV is enabled for
the first. -/
theorem no_lost_wakeUp_full : ∃ steps driver, DriverRun steps driver ∧
    driver.tx.queue.txTail = some 1 ∧ driver.tx.events = .clear ∧ driver.NoLostWakeUp := by
  obtain ⟨steps, driver, run, ⟨queued, quiet⟩, checked⟩ := Runs.run_of_performed step
    (fun steps driver => (driver.tx.queue.txTail = some 1 ∧ driver.tx.events = .clear) ∧
      ∀ entry ∈ steps, handsFrame entry.2 = true ∧ entry.1.keepsClear = true)
    initialised_waiting (callActions (plainCall 0 4096 1) ++ callActions (plainCall 1 6 2) ++
      threadActions 23) (by decide)
  exact ⟨steps, driver, run, queued, quiet, no_lost_wakeUp run
    (fun entry member => handsFrame_of (checked entry member).1)
    (fun entry member => keepsWakeUp_of (checked entry member).2)⟩

/-- The same frames; the hardware finishes the first one between `HandleTxReqs`
and the `HandleTxIntr` after it. The second one is left with nothing in flight and
no event. -/
theorem lost_wakeUp : ∃ steps driver, DriverRun steps driver ∧ Runs.Meets HandsFrame steps ∧
    ¬ driver.NoLostWakeUp := by
  obtain ⟨steps, driver, run, frames, ⟨waits, on, up⟩, ⟨idle, queued⟩, quiet, none⟩ :=
    Runs.run_of_performed step
    (fun steps driver => (∀ entry ∈ steps, handsFrame entry.2 = true) ∧
      (driver.control = .wait ∧ driver.smapIsInitialized = true ∧
        driver.tx.adapter.drv.linkStatus = true) ∧
      (driver.tx.tcpip = .idle ∧ driver.tx.queue.txTail = some 1) ∧
      driver.tx.events = .clear ∧ driver.inTx = 0)
    initialised_waiting (callActions (plainCall 0 4096 1) ++ callActions (plainCall 1 6 2) ++
      threadActions 18 ++ [.complete 0 0] ++ threadActions 6) (by decide)
  refine ⟨steps, driver, run, fun entry member => handsFrame_of (frames entry member), ?_⟩
  intro kept
  rcases kept waits on up idle (by simp [queued]) with intr | xmit | ⟨flying, _⟩
  · simp [quiet, EventFlag.clear] at intr
  · simp [quiet, EventFlag.clear] at xmit
  · omega

end Driver
end Ps2Eth.Smap
