import Mathlib.Data.Fintype.Basic
import Ps2Eth.SmapLinux.RequestQueue

/-!
# Threads in Send

`Send` of `smap-linux/main.c` run by any number of threads, against
`SMapInterrupt` and `Timer`. A thread that finds the request queue full takes
`iSendMutex`, checks again, leaves the handle of `iSendReqMutex` in `iSendReq`
and waits on it; `QueueHandler` signals the handle it finds there.

What runs with interrupts suspended, and each run of an interrupt handler, is a
single step. Both semaphores saturate at one, and a signal wakes any one of the
threads that wait.
-/

namespace Ps2Eth.SmapLinux.Senders

open Requests (tried)
open WorkQueue (Event)

/-- `TIMER_INTERVAL`, the microseconds between two calls of `Timer`. -/
def timerInterval : Int := 100 * 1000

/-- `TIMEOUT`, the microseconds after which `Timer` runs the queue itself. -/
def timeout : Int := 300 * 1000

/-- The two semaphores, of which `iSendMutex` is the one that a thread holds while it
waits for the other. -/
inductive Handle where
  | iSendMutex
  | iSendReqMutex
deriving DecidableEq

/-- What `Send` returns: the frame was taken, failed at the interface, or found no
link. -/
inductive ErrT where
  | errOk
  | errIf
  | errConn
deriving DecidableEq

/-- Where a thread is in `Send`. -/
inductive Thread where
  | idle
  /-- Before `AddToQueue`. -/
  | adding (pBuf : PBufPtr)
  /-- Before `WaitSema`. -/
  | waiting (sema : Handle) (pBuf : PBufPtr)
  /-- In `WaitSema`. -/
  | blocked (sema : Handle) (pBuf : PBufPtr)
  /-- Before the second look at `iReqCNT`. -/
  | checking (pBuf : PBufPtr)
  /-- Before `SignalSema(iSendMutex)`. -/
  | releasing (pBuf : PBufPtr)
  | returned (res : ErrT)
deriving DecidableEq

/-- Where `WaitSema` returns to: behind `iSendMutex` the queue is looked at, behind
`iSendReqMutex` all is given back. -/
def Thread.acquired : Handle → PBufPtr → Thread
  | .iSendMutex, pBuf => .checking pBuf
  | .iSendReqMutex, pBuf => .releasing pBuf

/-- The thread waits for a signal on the semaphore. -/
def Thread.blockedOn (sema : Handle) : Thread → Bool
  | .blocked held _ => held = sema
  | _ => false

/-- The driver's data, the counts of the semaphores and the threads; `iSendReq`
is `none` for -1. -/
structure State (τ : Type) where
  req : Requests
  iSendReq : Option Handle
  count : Handle → Nat
  thread : τ → Thread

/-- What happens next: in a thread, in a handler, at the timer, or by a wake-up without
reason. -/
inductive Action (τ : Type) where
  /-- A thread calls `Send`. -/
  | send (t : τ) (pBuf : PBufPtr)
  /-- A thread in `Send` goes on; `result` is what `SMap_Send` returns if it is
  called, `woken` the thread that wakes if it signals. -/
  | run (t : τ) (result : SMapStatus) (woken : Option τ)
  /-- `SMapInterrupt`, with a transmit interrupt or without. -/
  | smapInterrupt (tx : Bool) (results : Nat → SMapStatus) (woken : Option τ)
  | timer (results : Nat → SMapStatus) (woken : Option τ)
  /-- The protocol stack takes or gives back references of its own. -/
  | stack (pBuf : PBufPtr) (references : Int)

section Machine

variable {τ : Type} [DecidableEq τ] [Fintype τ]

namespace State

/-- The state with one thread moved. -/
def setThread (state : State τ) (t : τ) (thread : Thread) : State τ :=
  { state with thread := Function.update state.thread t thread }

/-- `SignalSema` and `iSignalSema`: a thread that waits is woken, whichever it is, or the
count is raised to at most 1. -/
def signalSema (state : State τ) (sema : Handle) : Option τ → Option (State τ)
  | some woken =>
      match state.thread woken with
      | .blocked held pBuf =>
          if held = sema then some (state.setThread woken (Thread.acquired sema pBuf)) else none
      | _ => none
  | none =>
      if ∃ t, (state.thread t).blockedOn sema = true then none
      else some { state with
        count := Function.update state.count sema (min 1 (state.count sema + 1)) }

/-- `QueueHandler` serves the queue and then signals the semaphore that a thread has left
in `iSendReq`, if any. -/
def queueHandler (state : State τ) (results : Nat → SMapStatus) (woken : Option τ) :
    Option (State τ) :=
  let state := { state with req := (state.req.sendRequests results).1 }
  match state.iSendReq with
  | none => some state
  | some sema => (state.signalSema sema woken).map fun signalled => { signalled with iSendReq := none }

/-- The part of `Timer` that counts. -/
def tick (state : State τ) : State τ :=
  { state with req := { state.req with iTimeoutCNT := state.req.iTimeoutCNT + timerInterval } }

/-- The window in which `Timer` calls `QueueHandler`. -/
def TimedOut (state : State τ) : Prop :=
  timeout ≤ state.req.iTimeoutCNT ∧ state.req.iTimeoutCNT < timeout + timerInterval

/-- Whether the driver times out is decided by its request queue and clock. -/
instance (state : State τ) : Decidable state.TimedOut := inferInstanceAs (Decidable (_ ∧ _))

/-- `Timer`: with requests waiting the count is advanced, and once it is in the window the
queue is run. -/
def stepTimer (state : State τ) (results : Nat → SMapStatus) (woken : Option τ) :
    Option (State τ) :=
  if state.req.iReqCNT = 0 then some state
  else if state.tick.TimedOut then state.tick.queueHandler results woken
  else some state.tick

/-- A thread's next step in `Send`. -/
def stepSend (state : State τ) (t : τ) (result : SMapStatus) (woken : Option τ) :
    Option (State τ) :=
  match state.thread t with
  | .idle => none
  | .adding pBuf =>
      let added := state.req.addToQueue pBuf result
      some ({ state with req := added.2.1 }.setThread t
        (match added.1 with
        | .ok => .returned .errOk
        | .err => .returned .errIf
        | .con => .returned .errConn
        | .tx => .waiting .iSendMutex pBuf))
  | .waiting sema pBuf =>
      if 0 < state.count sema then
        some ({ state with count := Function.update state.count sema (state.count sema - 1) }.setThread t
          (Thread.acquired sema pBuf))
      else some (state.setThread t (.blocked sema pBuf))
  | .blocked _ _ => none
  | .checking pBuf =>
      if state.req.iReqCNT = maxReqCnt then
        some ({ state with iSendReq := some .iSendReqMutex }.setThread t (.waiting .iSendReqMutex pBuf))
      else some (state.setThread t (.releasing pBuf))
  | .releasing pBuf => (state.setThread t (.adding pBuf)).signalSema .iSendMutex woken
  | .returned _ => none

/-- One step of the machine, if the action is possible. -/
def step (state : State τ) : Action τ → Option (State τ)
  | .send t pBuf =>
      match state.thread t with
      | .idle | .returned _ => some (state.setThread t (.adding pBuf))
      | _ => none
  | .run t result woken => state.stepSend t result woken
  | .smapInterrupt tx results woken =>
      if tx then state.queueHandler results woken else some state
  | .timer results woken => state.stepTimer results woken
  | .stack pBuf references =>
      some { state with req := state.req.addReferences pBuf references }

end State

/-- What a signal does: it wakes one of the threads that wait, or raises the count where
none waits. -/
inductive Signals (state : State τ) (sema : Handle) : State τ → Prop
  | wakes {t : τ} {pBuf : PBufPtr} (here : state.thread t = .blocked sema pBuf) :
      Signals state sema (state.setThread t (Thread.acquired sema pBuf))
  | raises (none : ∀ t pBuf, state.thread t ≠ .blocked sema pBuf) :
      Signals state sema { state with
        count := Function.update state.count sema (min 1 (state.count sema + 1)) }

/-- `SignalSema` wakes one waiting thread, or leaves the count raised where none waits. -/
theorem signalSema_signals {state next : State τ} {sema : Handle} {woken : Option τ}
    (signalled : state.signalSema sema woken = some next) : Signals state sema next := by
  cases woken with
  | some t =>
    cases here : state.thread t with
    | blocked held pBuf =>
      by_cases same : held = sema
      · subst same
        simp only [State.signalSema, here, if_true, Option.some.injEq] at signalled
        subst next
        exact Signals.wakes here
      · simp [State.signalSema, here, same] at signalled
    | idle | adding | waiting | checking | releasing | returned =>
      simp [State.signalSema, here] at signalled
  | none =>
    by_cases waits : ∃ t, (state.thread t).blockedOn sema = true
    · simp [State.signalSema, waits] at signalled
    · simp only [State.signalSema, waits, if_false, Option.some.injEq] at signalled
      subst next
      apply Signals.raises
      intro t pBuf here
      exact waits ⟨t, by simp [here, Thread.blockedOn]⟩

/-- What `QueueHandler` does: the queue is served, and the thread named by
`iSendReq` gets its signal. -/
inductive Handles (state : State τ) (results : Nat → SMapStatus) : State τ → Prop
  | quiet (none : state.iSendReq = none) :
      Handles state results { state with req := (state.req.sendRequests results).1 }
  | signals {sema : Handle} {signalled : State τ} (asked : state.iSendReq = some sema)
      (signals : Signals { state with req := (state.req.sendRequests results).1 } sema signalled) :
      Handles state results { signalled with iSendReq := none }

/-- `QueueHandler` serves the queue and signals, as `Handles` says. -/
theorem queueHandler_handles {state next : State τ} {results : Nat → SMapStatus}
    {woken : Option τ} (handled : state.queueHandler results woken = some next) :
    Handles state results next := by
  cases asked : state.iSendReq with
  | none =>
    simp only [State.queueHandler, asked, Option.some.injEq] at handled
    subst next
    simpa [asked] using Handles.quiet asked
  | some sema =>
    simp only [State.queueHandler, asked, Option.map_eq_some_iff] at handled
    obtain ⟨signalled, signal, rfl⟩ := handled
    have signals := signalSema_signals signal
    rw [← asked] at signals
    exact Handles.signals asked signals

/-- What each action does, said once with the guard under which it is taken. -/
inductive Moves (state : State τ) : Action τ → State τ → Prop
  | send {t : τ} (pBuf : PBufPtr) (here : state.thread t = .idle ∨ ∃ res, state.thread t = .returned res) :
      Moves state (.send t pBuf) (state.setThread t (.adding pBuf))
  | added {t : τ} {pBuf : PBufPtr} {result : SMapStatus} {woken : Option τ}
      (here : state.thread t = .adding pBuf) (taken : (state.req.addToQueue pBuf result).1 = .ok) :
      Moves state (.run t result woken)
        ({ state with req := (state.req.addToQueue pBuf result).2.1 }.setThread t (.returned .errOk))
  | refused {t : τ} {pBuf : PBufPtr} {result : SMapStatus} {woken : Option τ} {after : Thread}
      (here : state.thread t = .adding pBuf) (refused : (state.req.addToQueue pBuf result).1 ≠ .ok)
      (outcome : after = .returned .errIf ∨ after = .returned .errConn ∨
        after = .waiting .iSendMutex pBuf) :
      Moves state (.run t result woken) (state.setThread t after)
  | acquire {t : τ} {sema : Handle} {pBuf : PBufPtr} {result : SMapStatus} {woken : Option τ}
      (here : state.thread t = .waiting sema pBuf) (free : 0 < state.count sema) :
      Moves state (.run t result woken)
        ({ state with count := Function.update state.count sema (state.count sema - 1) }.setThread t
          (Thread.acquired sema pBuf))
  | block {t : τ} {sema : Handle} {pBuf : PBufPtr} {result : SMapStatus} {woken : Option τ}
      (here : state.thread t = .waiting sema pBuf) (taken : state.count sema = 0) :
      Moves state (.run t result woken) (state.setThread t (.blocked sema pBuf))
  | full {t : τ} {pBuf : PBufPtr} {result : SMapStatus} {woken : Option τ}
      (here : state.thread t = .checking pBuf) (full : state.req.iReqCNT = maxReqCnt) :
      Moves state (.run t result woken)
        ({ state with iSendReq := some .iSendReqMutex }.setThread t (.waiting .iSendReqMutex pBuf))
  | room {t : τ} {pBuf : PBufPtr} {result : SMapStatus} {woken : Option τ}
      (here : state.thread t = .checking pBuf) (room : state.req.iReqCNT ≠ maxReqCnt) :
      Moves state (.run t result woken) (state.setThread t (.releasing pBuf))
  | release {t : τ} {pBuf : PBufPtr} {result : SMapStatus} {woken : Option τ} {next : State τ}
      (here : state.thread t = .releasing pBuf)
      (signals : Signals (state.setThread t (.adding pBuf)) .iSendMutex next) :
      Moves state (.run t result woken) next
  | interrupt {results : Nat → SMapStatus} {woken : Option τ} {next : State τ}
      (handles : Handles state results next) : Moves state (.smapInterrupt true results woken) next
  | noInterrupt (results : Nat → SMapStatus) (woken : Option τ) :
      Moves state (.smapInterrupt false results woken) state
  | timeout {results : Nat → SMapStatus} {woken : Option τ} {next : State τ}
      (some : state.req.iReqCNT ≠ 0) (timedOut : state.tick.TimedOut)
      (handles : Handles state.tick results next) : Moves state (.timer results woken) next
  | tick {results : Nat → SMapStatus} {woken : Option τ} (some : state.req.iReqCNT ≠ 0)
      (early : ¬ state.tick.TimedOut) : Moves state (.timer results woken) state.tick
  | noTick {results : Nat → SMapStatus} {woken : Option τ} (empty : state.req.iReqCNT = 0) :
      Moves state (.timer results woken) state
  | stack (pBuf : PBufPtr) (references : Int) :
      Moves state (.stack pBuf references)
        { state with req := state.req.addReferences pBuf references }

/-- Every step of a thread in `Send` is one of the moves. -/
theorem stepSend_moves {state next : State τ} {t : τ} {result : SMapStatus} {woken : Option τ}
    (taken : state.stepSend t result woken = some next) :
    Moves state (.run t result woken) next := by
  cases here : state.thread t with
  | idle | blocked | returned => simp [State.stepSend, here] at taken
  | adding pBuf =>
    simp only [State.stepSend, here, Option.some.injEq] at taken
    subst next
    by_cases accepted : (state.req.addToQueue pBuf result).1 = .ok
    · simp only [accepted]
      exact Moves.added here accepted
    · rw [Requests.addToQueue_refused accepted]
      apply Moves.refused here accepted
      cases status : (state.req.addToQueue pBuf result).1 with
      | ok => exact absurd status accepted
      | err => simp
      | con => simp
      | tx => simp
  | waiting sema pBuf =>
    simp only [State.stepSend, here] at taken
    by_cases free : 0 < state.count sema
    · rw [if_pos free] at taken
      cases taken
      exact Moves.acquire here free
    · rw [if_neg free] at taken
      cases taken
      exact Moves.block here (by omega)
  | checking pBuf =>
    simp only [State.stepSend, here] at taken
    by_cases full : state.req.iReqCNT = maxReqCnt
    · rw [if_pos full] at taken
      cases taken
      exact Moves.full here full
    · rw [if_neg full] at taken
      cases taken
      exact Moves.room here full
  | releasing pBuf =>
    simp only [State.stepSend, here] at taken
    exact Moves.release here (signalSema_signals taken)

/-- Every step is one of the moves. -/
theorem step_moves {state next : State τ} {action : Action τ}
    (taken : state.step action = some next) : Moves state action next := by
  cases action with
  | send t pBuf =>
    cases here : state.thread t with
    | idle =>
      simp only [State.step, here, Option.some.injEq] at taken
      subst next
      exact Moves.send pBuf (Or.inl here)
    | returned res =>
      simp only [State.step, here, Option.some.injEq] at taken
      subst next
      exact Moves.send pBuf (Or.inr ⟨res, here⟩)
    | adding | waiting | blocked | checking | releasing => simp [State.step, here] at taken
  | run t result woken => exact stepSend_moves taken
  | smapInterrupt tx results woken =>
    cases tx with
    | true => exact Moves.interrupt (queueHandler_handles taken)
    | false =>
      cases taken
      exact Moves.noInterrupt results woken
  | timer results woken =>
    simp only [State.step, State.stepTimer] at taken
    by_cases empty : state.req.iReqCNT = 0
    · rw [if_pos empty] at taken
      cases taken
      exact Moves.noTick empty
    · rw [if_neg empty] at taken
      by_cases timedOut : state.tick.TimedOut
      · rw [if_pos timedOut] at taken
        exact Moves.timeout empty timedOut (queueHandler_handles taken)
      · rw [if_neg timedOut] at taken
        cases taken
        exact Moves.tick empty timedOut
  | stack pBuf references =>
    cases taken
    exact Moves.stack pBuf references

/-- The driver after `SMapInit`: the queue empty, no thread in `Send`, both
semaphores signalled. -/
structure Initialised (state : State τ) : Prop where
  first : state.req.iReqNR = 0
  empty : state.req.iReqCNT = 0
  timeout : state.req.iTimeoutCNT = 0
  quiet : state.iSendReq = none
  signalled : ∀ sema, state.count sema = 1
  idle : ∀ t, state.thread t = .idle

/-- The runs of the machine. -/
abbrev SendRun := Runs.Run (@State.step τ _ _) Initialised

/-- A driver with an empty queue, where every pbuf has the reference of its owner. -/
def idleDriver : State τ where
  req := ⟨0, 0, fun _ => 0, 0, fun _ => 1⟩
  iSendReq := none
  count := fun _ => 1
  thread := fun _ => .idle

omit [DecidableEq τ] [Fintype τ] in
/-- The driver that has just been started is initialised. -/
theorem idleDriver_initialised : Initialised (idleDriver : State τ) :=
  ⟨rfl, rfl, rfl, rfl, fun _ => rfl, fun _ => rfl⟩

end Machine

end Ps2Eth.SmapLinux.Senders
