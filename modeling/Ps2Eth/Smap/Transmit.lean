import Ps2Eth.Lib.Runs
import Ps2Eth.Smap.Accounting

/-!
# The transmit path of the smap driver as a two-thread machine

The TCP/IP thread hands frames over through `SMapLowLevelOutput`, which ends in
`SMAPXmit`; `IntrHandlerThread` moves them to the hardware in `HandleTxReqs` and
takes them back in `HandleTxIntr`. Each thread has a program counter, and a step
is one section with interrupts suspended or one access to shared data between
such sections. The hardware finishes descriptors at any moment, and the link may
come and go.

What the environment hands over is not restricted here. The results about the
machine say which hand-overs they are about.
-/

namespace Ps2Eth.Smap

/-- The bits of `Dev9IntrEventFlag`, each of which remembers an event until the thread
takes it. -/
structure EventFlag where
  start : Bool
  stop : Bool
  intr : Bool
  xmit : Bool
  linkCheck : Bool
deriving DecidableEq

/-- No event is pending. -/
def EventFlag.clear : EventFlag := ⟨false, false, false, false, false⟩

/-- `SetEventFlag`: the bits given are set, the others stay. -/
def EventFlag.set (flag bits : EventFlag) : EventFlag where
  start := flag.start || bits.start
  stop := flag.stop || bits.stop
  intr := flag.intr || bits.intr
  xmit := flag.xmit || bits.xmit
  linkCheck := flag.linkCheck || bits.linkCheck

/-- A call of `SMapLowLevelOutput`: the pbuf handed over with its lengths, the
bytes of the frame, and what `pbuf_coalesce` does if the frame spans several
pbufs. It returns a new pbuf, or `pOutput` itself when there is no memory. -/
structure OutputCall where
  pOutput : PbufPtr
  totLen : Nat
  len : Nat
  payload : Nat → UInt8
  coalesced : Option PbufPtr

/-- Where the TCP/IP thread stands, in `SMapLowLevelOutput` (`enq`), `SMAPXmit`
(`xmit`, `setEvent`) and `ClearPacketQueue` (the others). -/
inductive TcpipPc where
  | idle
  | enq (tx : PbufPtr)
  | xmit
  | setEvent
  | clearTake
  | drainNext
  | drainUnlink
  | drainClear (toFree : PbufPtr)
  | drainFree (toFree : PbufPtr)
deriving DecidableEq

/-- Where `IntrHandlerThread` stands in `HandleTxReqs`, up to `free`, or in
`HandleTxIntr`. -/
inductive HandlerPc where
  | idle
  | next
  | publish (data : PbufPtr) (length : Nat)
  | test (data : PbufPtr) (length : Nat)
  | copy (data : PbufPtr) (length : Nat)
  | bd (data : PbufPtr) (length bdDataPtr : Nat)
  | unpublish (data : PbufPtr)
  | deq (data : PbufPtr)
  | clear (toFree : PbufPtr)
  | free (toFree : PbufPtr)
  | txIntr
deriving DecidableEq

/-- The shared data, the pending events, and where the two threads stand. -/
structure State where
  queue : TxQueue
  adapter : Adapter
  events : EventFlag
  handler : HandlerPc
  tcpip : TcpipPc

/-- What happens next: a step of one of the threads, of the hardware, or of code outside
the two. -/
inductive Action where
  /-- The network stack calls `SMapLowLevelOutput`. -/
  | output (call : OutputCall)
  /-- The TCP/IP thread goes on. -/
  | tcpip
  /-- `IntrHandlerThread` calls `HandleTxReqs`. -/
  | handleTxReqs
  /-- `IntrHandlerThread` calls `HandleTxIntr`. -/
  | handleTxIntr
  /-- `IntrHandlerThread` goes on; a DMA it starts succeeds or fails. -/
  | handler (dmaOk : Bool)
  /-- The hardware is done with a descriptor. -/
  | complete (index : Nat) (ctrlStat : BitVec 16)
  /-- `IntrHandlerThread`, outside the two handlers, writes `LinkStatus`. -/
  | link (up : Bool)
  /-- Another event source signals. -/
  | setEvents (bits : EventFlag)
  /-- `WaitEventFlag` returns the pending events and clears them. -/
  | waitEvents

/-- The pbuf as handed over: the stack has written its bytes. -/
def TxQueue.fill (queue : TxQueue) (call : OutputCall) : TxQueue :=
  queue.store call.pOutput
    { queue.pbufs call.pOutput with payload := call.payload, len := call.len }

/-- The pbuf that `pbuf_coalesce` returns: one copy of the whole frame. -/
def OutputCall.copied (call : OutputCall) : Pbuf := ⟨none, call.payload, call.totLen, 1⟩

/-- `SMapLowLevelOutput` up to `EnQTxPacket`: the queue then, and the pbuf to
queue unless the call fails with `ERR_MEM`. `pbuf_coalesce` takes memory that is
not in use and gives back the reference on its argument. -/
def sMapLowLevelOutput (queue : TxQueue) (call : OutputCall) : Option (TxQueue × Option PbufPtr) :=
  if call.len < call.totLen then
    match call.coalesced with
    | none => some (queue.pbufRef call.pOutput, none)
    | some copy =>
        if copy ≠ call.pOutput ∧ (queue.pbufs copy).refs = 0 then
          some (((queue.pbufRef call.pOutput).pbufFree call.pOutput).store copy call.copied, some copy)
        else none
  else some ((queue.fill call).pbufRef call.pOutput, some call.pOutput)

namespace State

/-- An assignment to `packetToSend`, with nothing else changed. -/
def setPacketToSend (state : State) (packetToSend : Option PbufPtr) : State :=
  { state with adapter := { state.adapter with
      drv := { state.adapter.drv with packetToSend := packetToSend } } }

/-- An assignment to `LinkStatus`, with nothing else changed. -/
def setLinkStatus (state : State) (linkStatus : Bool) : State :=
  { state with adapter := { state.adapter with
      drv := { state.adapter.drv with linkStatus := linkStatus } } }

/-- Assigning `packetToSend` leaves the queue. -/
@[simp] theorem setPacketToSend_queue (state : State) (packetToSend : Option PbufPtr) :
    (state.setPacketToSend packetToSend).queue = state.queue := rfl

/-- It leaves the place of `IntrHandlerThread`. -/
@[simp] theorem setPacketToSend_handler (state : State) (packetToSend : Option PbufPtr) :
    (state.setPacketToSend packetToSend).handler = state.handler := rfl

/-- It leaves the place of the TCP/IP thread. -/
@[simp] theorem setPacketToSend_tcpip (state : State) (packetToSend : Option PbufPtr) :
    (state.setPacketToSend packetToSend).tcpip = state.tcpip := rfl

/-- The TCP/IP thread enters `SMapLowLevelOutput`. -/
def stepOutput (state : State) (call : OutputCall) : Option State :=
  match state.tcpip with
  | .idle =>
      match sMapLowLevelOutput state.queue call with
      | some (queue, some tx) => some { state with queue := queue, tcpip := .enq tx }
      | some (queue, none) => some { state with queue := queue }
      | none => none
  | _ => none

/-- The TCP/IP thread between `EnQTxPacket` and the return of `SMAPXmit`. -/
def stepTcpip (state : State) : Option State :=
  match state.tcpip with
  | .idle => none
  | .enq tx => some { state with queue := state.queue.enQTxPacket tx, tcpip := .xmit }
  | .xmit =>
      if state.adapter.drv.linkStatus then some { state with tcpip := .setEvent }
      else some { state with tcpip := .clearTake }
  | .setEvent =>
      some { state with events := { state.events with xmit := true }, tcpip := .idle }
  | .clearTake =>
      match state.adapter.drv.packetToSend with
      | some _ => some { state.setPacketToSend none with tcpip := .drainNext }
      | none => some { state.setPacketToSend none with tcpip := .idle }
  | .drainNext =>
      if 0 < state.queue.sMapTxPacketNext.2 then some { state with tcpip := .drainUnlink }
      else some { state with tcpip := .idle }
  | .drainUnlink =>
      match state.queue.unlinkTail with
      | (some toFree, queue) => some { state with queue := queue, tcpip := .drainClear toFree }
      | (none, queue) => some { state with queue := queue, tcpip := .drainNext }
  | .drainClear toFree =>
      some { state with queue := state.queue.setNext toFree none, tcpip := .drainFree toFree }
  | .drainFree toFree =>
      some { state with queue := state.queue.pbufFree toFree, tcpip := .drainNext }

/-- `IntrHandlerThread` inside `HandleTxReqs` or `HandleTxIntr`. -/
def stepHandler (state : State) (dmaOk : Bool) : Option State :=
  match state.handler with
  | .idle => none
  | .next =>
      match state.queue.sMapTxPacketNext with
      | (some data, length) =>
          if length < 1 then some { state with handler := .idle }
          else some { state with handler := .publish data length }
      | (none, _) => some { state with handler := .idle }
  | .publish data length =>
      some { state.setPacketToSend (some data) with handler := .test data length }
  | .test data length =>
      if state.adapter.drv.numPacketsInTx < smapBdMaxEntry then
        if 0 < length then
          if sizeRounded length ≤ state.adapter.drv.txBufferSpaceAvailable then
            some { state with handler := .copy data length }
          else some { state with handler := .idle }
        else some { state with handler := .unpublish data }
      else some { state with handler := .idle }
  | .copy data length =>
      some { state with
        adapter := { state.adapter with
          fifo := copyToFIFO state.adapter.fifo (state.queue.pbufs data).payload length dmaOk }
        handler := .bd data length ((state.adapter.fifo.pointer + smapTxBase) % 65536) }
  | .bd data length bdDataPtr =>
      some { state with
        adapter := state.adapter.queueBd length bdDataPtr
        handler := .unpublish data }
  | .unpublish data => some { state.setPacketToSend none with handler := .deq data }
  | .deq _ =>
      match state.queue.unlinkTail with
      | (some toFree, queue) => some { state with queue := queue, handler := .clear toFree }
      | (none, queue) => some { state with queue := queue, handler := .next }
  | .clear toFree =>
      some { state with queue := state.queue.setNext toFree none, handler := .free toFree }
  | .free toFree =>
      some { state with queue := state.queue.pbufFree toFree, handler := .next }
  | .txIntr =>
      match state.adapter.reap with
      | some adapter => some { state with adapter := adapter }
      | none => some { state with handler := .idle }

/-- One step of the machine, if the action is possible. -/
def step (state : State) : Action → Option State
  | .output call => state.stepOutput call
  | .tcpip => state.stepTcpip
  | .handleTxReqs =>
      if state.handler = .idle then some { state with handler := .next } else none
  | .handleTxIntr =>
      if state.handler = .idle then some { state with handler := .txIntr } else none
  | .handler dmaOk => state.stepHandler dmaOk
  | .complete index ctrlStat => some { state with adapter := state.adapter.complete index ctrlStat }
  | .link up => if state.handler = .idle then some (state.setLinkStatus up) else none
  | .setEvents bits => some { state with events := state.events.set bits }
  | .waitEvents =>
      if state.handler = .idle then some { state with events := .clear } else none

end State

/-- What each action does, one constructor for each way through its section. The
invariants of the machine are proved by cases on it. -/
inductive Moves (state : State) : Action → State → Prop where
  | refused {call : OutputCall} (here : state.tcpip = .idle) (split : call.len < call.totLen)
      (noMemory : call.coalesced = none) :
      Moves state (.output call) { state with queue := state.queue.pbufRef call.pOutput }
  | coalesced {call : OutputCall} {copy : PbufPtr} (here : state.tcpip = .idle)
      (split : call.len < call.totLen) (given : call.coalesced = some copy)
      (other : copy ≠ call.pOutput) (unused : (state.queue.pbufs copy).refs = 0) :
      Moves state (.output call) { state with
        queue := ((state.queue.pbufRef call.pOutput).pbufFree call.pOutput).store copy call.copied
        tcpip := .enq copy }
  | whole {call : OutputCall} (here : state.tcpip = .idle) (single : ¬ call.len < call.totLen) :
      Moves state (.output call) { state with
        queue := (state.queue.fill call).pbufRef call.pOutput
        tcpip := .enq call.pOutput }
  | enq {tx : PbufPtr} (here : state.tcpip = .enq tx) :
      Moves state .tcpip { state with queue := state.queue.enQTxPacket tx, tcpip := .xmit }
  | linked (here : state.tcpip = .xmit) (up : state.adapter.drv.linkStatus = true) :
      Moves state .tcpip { state with tcpip := .setEvent }
  | unlinked (here : state.tcpip = .xmit) (down : state.adapter.drv.linkStatus = false) :
      Moves state .tcpip { state with tcpip := .clearTake }
  | signal (here : state.tcpip = .setEvent) :
      Moves state .tcpip
        { state with events := { state.events with xmit := true }, tcpip := .idle }
  | take {packet : PbufPtr} (here : state.tcpip = .clearTake)
      (sending : state.adapter.drv.packetToSend = some packet) :
      Moves state .tcpip { state.setPacketToSend none with tcpip := .drainNext }
  | leave (here : state.tcpip = .clearTake) (quiet : state.adapter.drv.packetToSend = none) :
      Moves state .tcpip { state.setPacketToSend none with tcpip := .idle }
  | drain (here : state.tcpip = .drainNext) (more : 0 < state.queue.sMapTxPacketNext.2) :
      Moves state .tcpip { state with tcpip := .drainUnlink }
  | drained (here : state.tcpip = .drainNext) (stop : state.queue.sMapTxPacketNext.2 = 0) :
      Moves state .tcpip { state with tcpip := .idle }
  | drainUnlink {toFree : PbufPtr} (here : state.tcpip = .drainUnlink)
      (oldest : state.queue.txTail = some toFree) :
      Moves state .tcpip
        { state with queue := state.queue.unlinkTail.2, tcpip := .drainClear toFree }
  | drainEmpty (here : state.tcpip = .drainUnlink) (empty : state.queue.txTail = none) :
      Moves state .tcpip { state with tcpip := .drainNext }
  | drainClear {toFree : PbufPtr} (here : state.tcpip = .drainClear toFree) :
      Moves state .tcpip
        { state with queue := state.queue.setNext toFree none, tcpip := .drainFree toFree }
  | drainFree {toFree : PbufPtr} (here : state.tcpip = .drainFree toFree) :
      Moves state .tcpip { state with queue := state.queue.pbufFree toFree, tcpip := .drainNext }
  | handleTxReqs (here : state.handler = .idle) :
      Moves state .handleTxReqs { state with handler := .next }
  | handleTxIntr (here : state.handler = .idle) :
      Moves state .handleTxIntr { state with handler := .txIntr }
  | peek {data : PbufPtr} {dmaOk : Bool} (here : state.handler = .next)
      (oldest : state.queue.txTail = some data) (some : 0 < (state.queue.pbufs data).len) :
      Moves state (.handler dmaOk)
        { state with handler := .publish data (state.queue.pbufs data).len }
  | nothing {dmaOk : Bool} (here : state.handler = .next)
      (stop : state.queue.sMapTxPacketNext.2 = 0) :
      Moves state (.handler dmaOk) { state with handler := .idle }
  | publish {data : PbufPtr} {length : Nat} {dmaOk : Bool} (here : state.handler = .publish data length) :
      Moves state (.handler dmaOk)
        { state.setPacketToSend (some data) with handler := .test data length }
  | fits {data : PbufPtr} {length : Nat} {dmaOk : Bool} (here : state.handler = .test data length)
      (notFull : state.adapter.drv.numPacketsInTx < smapBdMaxEntry) (some : 0 < length)
      (room : sizeRounded length ≤ state.adapter.drv.txBufferSpaceAvailable) :
      Moves state (.handler dmaOk) { state with handler := .copy data length }
  | dropped {data : PbufPtr} {dmaOk : Bool} (here : state.handler = .test data 0)
      (notFull : state.adapter.drv.numPacketsInTx < smapBdMaxEntry) :
      Moves state (.handler dmaOk) { state with handler := .unpublish data }
  | full {data : PbufPtr} {length : Nat} {dmaOk : Bool} (here : state.handler = .test data length)
      (full : smapBdMaxEntry ≤ state.adapter.drv.numPacketsInTx ∨
        0 < length ∧ state.adapter.drv.txBufferSpaceAvailable < sizeRounded length) :
      Moves state (.handler dmaOk) { state with handler := .idle }
  | copy {data : PbufPtr} {length : Nat} {dmaOk : Bool} (here : state.handler = .copy data length) :
      Moves state (.handler dmaOk) { state with
        adapter := { state.adapter with
          fifo := copyToFIFO state.adapter.fifo (state.queue.pbufs data).payload length dmaOk }
        handler := .bd data length ((state.adapter.fifo.pointer + smapTxBase) % 65536) }
  | bd {data : PbufPtr} {length bdDataPtr : Nat} {dmaOk : Bool}
      (here : state.handler = .bd data length bdDataPtr) :
      Moves state (.handler dmaOk) { state with
        adapter := state.adapter.queueBd length bdDataPtr
        handler := .unpublish data }
  | unpublish {data : PbufPtr} {dmaOk : Bool} (here : state.handler = .unpublish data) :
      Moves state (.handler dmaOk) { state.setPacketToSend none with handler := .deq data }
  | unlink {data toFree : PbufPtr} {dmaOk : Bool} (here : state.handler = .deq data)
      (oldest : state.queue.txTail = some toFree) :
      Moves state (.handler dmaOk)
        { state with queue := state.queue.unlinkTail.2, handler := .clear toFree }
  | unlinkEmpty {data : PbufPtr} {dmaOk : Bool} (here : state.handler = .deq data)
      (empty : state.queue.txTail = none) :
      Moves state (.handler dmaOk) { state with handler := .next }
  | clear {toFree : PbufPtr} {dmaOk : Bool} (here : state.handler = .clear toFree) :
      Moves state (.handler dmaOk)
        { state with queue := state.queue.setNext toFree none, handler := .free toFree }
  | free {toFree : PbufPtr} {dmaOk : Bool} (here : state.handler = .free toFree) :
      Moves state (.handler dmaOk)
        { state with queue := state.queue.pbufFree toFree, handler := .next }
  | reap {adapter : Adapter} {dmaOk : Bool} (here : state.handler = .txIntr)
      (done : state.adapter.reap = some adapter) :
      Moves state (.handler dmaOk) { state with adapter := adapter }
  | reaped {dmaOk : Bool} (here : state.handler = .txIntr) (ended : state.adapter.reap = none) :
      Moves state (.handler dmaOk) { state with handler := .idle }
  | complete (index : Nat) (ctrlStat : BitVec 16) :
      Moves state (.complete index ctrlStat)
        { state with adapter := state.adapter.complete index ctrlStat }
  | link (up : Bool) (here : state.handler = .idle) :
      Moves state (.link up) (state.setLinkStatus up)
  | setEvents (bits : EventFlag) :
      Moves state (.setEvents bits) { state with events := state.events.set bits }
  | waitEvents (here : state.handler = .idle) :
      Moves state .waitEvents { state with events := .clear }

/-- `SMapTxPacketNext` reports the oldest pbuf's length, or zero. -/
theorem sMapTxPacketNext_some {queue : TxQueue} {oldest : PbufPtr}
    (tail : queue.txTail = some oldest) :
    queue.sMapTxPacketNext = (some oldest, (queue.pbufs oldest).len) := by
  simp [TxQueue.sMapTxPacketNext, tail]

/-- From an empty queue it reports length zero. -/
theorem sMapTxPacketNext_none {queue : TxQueue} (empty : queue.txTail = none) :
    queue.sMapTxPacketNext = (none, 0) := by
  simp [TxQueue.sMapTxPacketNext, empty]

/-- Taking off the oldest pbuf returns it. -/
theorem unlinkTail_some {queue : TxQueue} {oldest : PbufPtr} (tail : queue.txTail = some oldest) :
    queue.unlinkTail = (some oldest, queue.unlinkTail.2) := by
  rw [← tail, ← TxQueue.unlinkTail_fst queue]

/-- A call of `SMapLowLevelOutput` is one of the moves. -/
theorem stepOutput_moves {state next : State} {call : OutputCall}
    (taken : state.stepOutput call = some next) : Moves state (.output call) next := by
  cases here : state.tcpip with
  | idle =>
    simp only [State.stepOutput, here, sMapLowLevelOutput] at taken
    by_cases split : call.len < call.totLen
    · simp only [split, ↓reduceIte] at taken
      cases given : call.coalesced with
      | none =>
        simp only [given, Option.some.injEq] at taken
        subst next
        simpa [here] using Moves.refused here split given
      | some copy =>
        simp only [given] at taken
        by_cases usable : copy ≠ call.pOutput ∧ (state.queue.pbufs copy).refs = 0
        · simp only [usable, ↓reduceIte, Option.some.injEq, ne_eq, not_false_eq_true, and_self] at taken
          subst next
          exact Moves.coalesced here split given usable.1 usable.2
        · rw [if_neg usable] at taken
          simp at taken
    · simp only [split, ↓reduceIte, Option.some.injEq] at taken
      subst next
      exact Moves.whole here split
  | _ => simp [State.stepOutput, here] at taken

/-- Every step of the TCP/IP thread is one of the moves. The cases are its places. -/
theorem stepTcpip_moves {state next : State} (taken : state.stepTcpip = some next) :
    Moves state .tcpip next := by
  cases here : state.tcpip with
  | idle => simp [State.stepTcpip, here] at taken
  | enq tx =>
    simp only [State.stepTcpip, here, Option.some.injEq] at taken
    subst next
    exact Moves.enq here
  | xmit =>
    simp only [State.stepTcpip, here] at taken
    cases link : state.adapter.drv.linkStatus with
    | true =>
      simp only [link, ↓reduceIte, Option.some.injEq] at taken
      subst next
      exact Moves.linked here link
    | false =>
      simp only [link, Bool.false_eq_true, ↓reduceIte, Option.some.injEq] at taken
      subst next
      exact Moves.unlinked here link
  | setEvent =>
    simp only [State.stepTcpip, here, Option.some.injEq] at taken
    subst next
    exact Moves.signal here
  | clearTake =>
    simp only [State.stepTcpip, here] at taken
    cases sending : state.adapter.drv.packetToSend with
    | some packet =>
      simp only [sending, Option.some.injEq] at taken
      subst next
      exact Moves.take here sending
    | none =>
      simp only [sending, Option.some.injEq] at taken
      subst next
      exact Moves.leave here sending
  | drainNext =>
    simp only [State.stepTcpip, here] at taken
    by_cases more : 0 < state.queue.sMapTxPacketNext.2
    · simp only [more, ↓reduceIte, Option.some.injEq] at taken
      subst next
      exact Moves.drain here more
    · simp only [more, ↓reduceIte, Option.some.injEq] at taken
      subst next
      exact Moves.drained here (Nat.eq_zero_of_not_pos more)
  | drainUnlink =>
    simp only [State.stepTcpip, here] at taken
    cases oldest : state.queue.txTail with
    | some toFree =>
      rw [unlinkTail_some oldest] at taken
      cases taken
      exact Moves.drainUnlink here oldest
    | none =>
      rw [TxQueue.unlinkTail_empty oldest] at taken
      cases taken
      exact Moves.drainEmpty here oldest
  | drainClear toFree =>
    simp only [State.stepTcpip, here, Option.some.injEq] at taken
    subst next
    exact Moves.drainClear here
  | drainFree toFree =>
    simp only [State.stepTcpip, here, Option.some.injEq] at taken
    subst next
    exact Moves.drainFree here

/-- Every step of `IntrHandlerThread` is one of the moves. The cases are its places. -/
theorem stepHandler_moves {state next : State} {dmaOk : Bool}
    (taken : state.stepHandler dmaOk = some next) : Moves state (.handler dmaOk) next := by
  cases here : state.handler with
  | idle => simp [State.stepHandler, here] at taken
  | next =>
    simp only [State.stepHandler, here] at taken
    cases oldest : state.queue.txTail with
    | none =>
      simp only [sMapTxPacketNext_none oldest, Option.some.injEq] at taken
      subst next
      exact Moves.nothing here (by rw [sMapTxPacketNext_none oldest])
    | some data =>
      simp only [sMapTxPacketNext_some oldest] at taken
      by_cases stop : (state.queue.pbufs data).len < 1
      · simp only [stop, ↓reduceIte, Option.some.injEq] at taken
        subst next
        exact Moves.nothing here (by rw [sMapTxPacketNext_some oldest]; omega)
      · simp only [stop, ↓reduceIte, Option.some.injEq] at taken
        subst next
        exact Moves.peek here oldest (by omega)
  | publish data length =>
    simp only [State.stepHandler, here, Option.some.injEq] at taken
    subst next
    exact Moves.publish here
  | test data length =>
    simp only [State.stepHandler, here] at taken
    by_cases notFull : state.adapter.drv.numPacketsInTx < smapBdMaxEntry
    · simp only [notFull, ↓reduceIte] at taken
      by_cases some : 0 < length
      · simp only [some, ↓reduceIte] at taken
        by_cases room : sizeRounded length ≤ state.adapter.drv.txBufferSpaceAvailable
        · simp only [room, ↓reduceIte, Option.some.injEq] at taken
          subst next
          exact Moves.fits here notFull some room
        · simp only [room, ↓reduceIte, Option.some.injEq] at taken
          subst next
          exact Moves.full here (Or.inr ⟨some, by omega⟩)
      · simp only [some, ↓reduceIte, Option.some.injEq] at taken
        subst next
        obtain rfl : length = 0 := by omega
        exact Moves.dropped here notFull
    · simp only [notFull, ↓reduceIte, Option.some.injEq] at taken
      subst next
      exact Moves.full here (Or.inl (by omega))
  | copy data length =>
    simp only [State.stepHandler, here, Option.some.injEq] at taken
    subst next
    exact Moves.copy here
  | bd data length bdDataPtr =>
    simp only [State.stepHandler, here, Option.some.injEq] at taken
    subst next
    exact Moves.bd here
  | unpublish data =>
    simp only [State.stepHandler, here, Option.some.injEq] at taken
    subst next
    exact Moves.unpublish here
  | deq data =>
    simp only [State.stepHandler, here] at taken
    cases oldest : state.queue.txTail with
    | some toFree =>
      rw [unlinkTail_some oldest] at taken
      cases taken
      exact Moves.unlink here oldest
    | none =>
      rw [TxQueue.unlinkTail_empty oldest] at taken
      cases taken
      exact Moves.unlinkEmpty here oldest
  | clear toFree =>
    simp only [State.stepHandler, here, Option.some.injEq] at taken
    subst next
    exact Moves.clear here
  | free toFree =>
    simp only [State.stepHandler, here, Option.some.injEq] at taken
    subst next
    exact Moves.free here
  | txIntr =>
    simp only [State.stepHandler, here] at taken
    cases done : state.adapter.reap with
    | some adapter =>
      simp only [done, Option.some.injEq] at taken
      subst next
      simpa [here] using @Moves.reap state adapter dmaOk here done
    | none =>
      simp only [done, Option.some.injEq] at taken
      subst next
      exact Moves.reaped here done

/-- Every step is one of the moves. -/
theorem step_moves {state next : State} {action : Action}
    (taken : state.step action = some next) : Moves state action next := by
  cases action with
  | output call => exact stepOutput_moves taken
  | tcpip => exact stepTcpip_moves taken
  | handleTxReqs =>
    by_cases here : state.handler = .idle
    · simp only [State.step, here, ↓reduceIte, Option.some.injEq] at taken
      subst next
      exact Moves.handleTxReqs here
    · simp [State.step, here] at taken
  | handleTxIntr =>
    by_cases here : state.handler = .idle
    · simp only [State.step, here, ↓reduceIte, Option.some.injEq] at taken
      subst next
      exact Moves.handleTxIntr here
    · simp [State.step, here] at taken
  | handler dmaOk => exact stepHandler_moves taken
  | complete index ctrlStat =>
    cases taken
    exact Moves.complete index ctrlStat
  | link up =>
    by_cases here : state.handler = .idle
    · simp only [State.step, here, ↓reduceIte, Option.some.injEq] at taken
      subst next
      exact Moves.link up here
    · simp [State.step, here] at taken
  | setEvents bits =>
    cases taken
    exact Moves.setEvents bits
  | waitEvents =>
    by_cases here : state.handler = .idle
    · simp only [State.step, here, ↓reduceIte, Option.some.injEq] at taken
      subst next
      simpa [here] using Moves.waitEvents here
    · simp [State.step, here] at taken

/-- The driver after `smap_init` and `SMapIFInit`, which may have brought the link
up: nothing queued, in flight or held, and both threads outside the transmit
path. -/
structure Fresh (state : State) : Prop where
  adapter : ∃ memory up, state.adapter = { smapInit memory with
    drv := { (smapInit memory).drv with linkStatus := up } }
  txHead : state.queue.txHead = none
  txTail : state.queue.txTail = none
  refs : ∀ pbuf, (state.queue.pbufs pbuf).refs = 0
  handler : state.handler = .idle
  tcpip : state.tcpip = .idle

/-- The runs of the machine from a fresh driver. -/
abbrev TxRun := Runs.Run State.step Fresh

/-- A fresh driver whose pbufs are all empty. -/
def freshDriver : State where
  queue := ⟨fun _ => ⟨none, fun _ => 0, 0, 0⟩, none, none⟩
  adapter := smapInit fun _ => 0
  events := .clear
  handler := .idle
  tcpip := .idle

/-- The fresh driver is one that a run can start from. -/
theorem freshDriver_fresh : Fresh freshDriver where
  adapter := ⟨_, false, rfl⟩
  txHead := rfl
  txTail := rfl
  refs := fun _ => rfl
  handler := rfl
  tcpip := rfl

/-- A frame of one pbuf, all its bytes alike. -/
def plainCall (pOutput : PbufPtr) (len : Nat) (byte : UInt8) : OutputCall :=
  ⟨pOutput, len, len, fun _ => byte, none⟩

/-- The whole of a call of `SMapLowLevelOutput` with the link up. -/
def outputActions (call : OutputCall) : List Action := .output call :: List.replicate 3 .tcpip

/-- The first `turns` steps of `IntrHandlerThread` in `HandleTxReqs`. -/
def txReqsActions (turns : Nat) : List Action :=
  .handleTxReqs :: List.replicate turns (.handler true)

end Ps2Eth.Smap
