import Ps2Eth.SmapLinux.SendThreads

/-!
# No stranded sender

A thread blocked on `iSendReqMutex` is the owner of `iSendMutex`, and the only
thread past it. It found the queue full and left its handle in `iSendReq`; only
`QueueHandler` shortens the queue, and it signals the handle as it does. A
signal that comes before the thread waits is kept by the semaphore, and the
first wait, which passes at once, costs another look at the queue.
-/

namespace Ps2Eth.SmapLinux.Senders

open Requests (InRange)

variable {τ : Type} [DecidableEq τ]

/-- The thread owns `iSendMutex`: it has got it and not given it back. -/
def Thread.inside : Thread → Bool
  | .waiting .iSendReqMutex _ | .blocked .iSendReqMutex _ | .checking _ | .releasing _ => true
  | _ => false

/-- The queue is in range, and the window of `Timer` lies ahead. -/
structure Timely (req : Requests) : Prop where
  inRange : InRange req
  started : 0 ≤ req.iTimeoutCNT
  early : req.iTimeoutCNT < timeout

/-- `iSendMutex` has at most one owner, and none while it is signalled. -/
structure Exclusive (state : State τ) : Prop where
  binary : ∀ sema, state.count sema ≤ 1
  alone : ∀ t u, (state.thread t).inside = true → (state.thread u).inside = true → t = u
  owned : ∀ t, (state.thread t).inside = true → state.count .iSendMutex = 0

/-- A thread past `iSendMutex` that is to wait has its handle in `iSendReq`, or
its signal already. -/
structure Heard (state : State τ) : Prop where
  asked : ∀ sema, state.iSendReq = some sema →
    sema = .iSendReqMutex ∧ state.req.iReqCNT = maxReqCnt
  waiting : ∀ t pBuf, state.thread t = .waiting .iSendReqMutex pBuf →
    state.iSendReq = some .iSendReqMutex ∨ 0 < state.count .iSendReqMutex
  blocked : ∀ t pBuf, state.thread t = .blocked .iSendReqMutex pBuf →
    state.iSendReq = some .iSendReqMutex

/-- The thread that moves is where it moved to. -/
theorem setThread_same (state : State τ) (t : τ) (thread : Thread) :
    (state.setThread t thread).thread t = thread := Function.update_self ..

/-- All other threads stay where they are. -/
theorem setThread_other (state : State τ) {t u : τ} (other : u ≠ t) (thread : Thread) :
    (state.setThread t thread).thread u = state.thread u := Function.update_of_ne other ..

/-- A signal changes nothing but threads and counts. -/
theorem Signals.kept {state next : State τ} {sema : Handle} (signals : Signals state sema next) :
    next.req = state.req ∧ next.iSendReq = state.iSendReq := by
  cases signals with
  | wakes | raises => exact ⟨rfl, rfl⟩

/-- `QueueHandler` serves the queue and leaves no handle in `iSendReq`. -/
theorem Handles.kept {state next : State τ} {results : Nat → SMapStatus}
    (handles : Handles state results next) :
    next.req = (state.req.sendRequests results).1 ∧ next.iSendReq = none := by
  cases handles with
  | quiet none => exact ⟨rfl, none⟩
  | signals asked signals => exact ⟨signals.kept.1, rfl⟩

/-- Serving a queue that is not empty clears the timeout. -/
theorem sendRequests_timely {req : Requests} (inRange : InRange req) (results : Nat → SMapStatus)
    (timely : req.iReqCNT ≠ 0 ∨ Timely req) : Timely (req.sendRequests results).1 := by
  have sends := Requests.sendRequests_sends inRange results
  have cleared := sends.timeout
  have notNegative := inRange.notNegative
  by_cases some : 0 < req.iReqCNT
  · rw [if_pos some] at cleared
    exact ⟨sends.inRange, by omega, by rw [cleared]; decide⟩
  · rw [if_neg some] at cleared
    have before : Timely req := timely.resolve_left (by omega)
    exact ⟨sends.inRange, cleared ▸ before.started, cleared ▸ before.early⟩

omit [DecidableEq τ] in
/-- A tick of the clock leaves the request queue alone. -/
theorem tick_inRange {state : State τ} (inRange : InRange state.req) : InRange state.tick.req :=
  ⟨inRange.notNegative, inRange.count, inRange.firstNotNegative, inRange.first⟩

/-- Every step keeps the queue in range and the window of `Timer` ahead.

Proof: by the moves. The count of the timer grows only in a tick that comes too early to
time out, and is cleared by every request that leaves. -/
theorem moves_timely [Fintype τ] {state next : State τ} {action : Action τ}
    (timely : Timely state.req) (moves : Moves state action next) : Timely next.req := by
  obtain ⟨inRange, started, early⟩ := timely
  cases moves with
  | send | refused | acquire | block | full | room | noInterrupt | noTick =>
    exact ⟨inRange, started, early⟩
  | @added t pBuf result woken here taken =>
    have adds := Requests.addToQueue_adds inRange taken
    change Timely (state.req.addToQueue pBuf result).2.1
    rcases adds.timeout with same | cleared
    · exact ⟨adds.inRange, same ▸ started, same ▸ early⟩
    · exact ⟨adds.inRange, by omega, by rw [cleared]; decide⟩
  | release here signals =>
    rw [signals.kept.1]
    exact ⟨inRange, started, early⟩
  | @interrupt results woken next handles =>
    rw [handles.kept.1]
    exact sendRequests_timely inRange results (Or.inr ⟨inRange, started, early⟩)
  | @timeout results woken next some timedOut handles =>
    rw [handles.kept.1]
    exact sendRequests_timely (tick_inRange inRange) results (Or.inl some)
  | tick some notYet =>
    constructor
    · exact tick_inRange inRange
    · change 0 ≤ state.req.iTimeoutCNT + timerInterval
      simp only [timerInterval]
      omega
    · change state.req.iTimeoutCNT + timerInterval < timeout
      by_contra late
      exact notYet ⟨by change timeout ≤ state.req.iTimeoutCNT + timerInterval; omega,
        by change state.req.iTimeoutCNT + timerInterval < timeout + timerInterval; omega⟩
  | stack =>
    exact ⟨⟨inRange.notNegative, inRange.count, inRange.firstNotNegative, inRange.first⟩, started,
      early⟩

/-- A thread that does not come to own the mutex changes no ownership. -/
theorem Exclusive.setThread {state : State τ} (exclusive : Exclusive state) {t : τ} {thread : Thread}
    (owned : thread.inside = true → (state.thread t).inside = true) :
    Exclusive (state.setThread t thread) := by
  have before : ∀ u, ((state.setThread t thread).thread u).inside = true →
      (state.thread u).inside = true := by
    intro u inside
    by_cases same : u = t
    · subst same
      rw [setThread_same] at inside
      exact owned inside
    · rwa [setThread_other state same] at inside
  constructor
  · exact exclusive.binary
  · intro u v insideU insideV
    exact exclusive.alone u v (before u insideU) (before v insideV)
  · intro u inside
    exact exclusive.owned u (before u inside)

omit [DecidableEq τ] in
/-- The count of the other semaphore says nothing about ownership. -/
theorem Exclusive.setCount {state : State τ} (exclusive : Exclusive state) {count : Nat}
    (binary : count ≤ 1) :
    Exclusive { state with count := Function.update state.count .iSendReqMutex count } := by
  constructor
  · intro sema
    cases sema with
    | iSendMutex => exact exclusive.binary .iSendMutex
    | iSendReqMutex => exact binary
  · exact exclusive.alone
  · intro t inside
    exact exclusive.owned t inside

/-- A taken mutex without an owner gets one. -/
theorem Exclusive.enter {state : State τ} (exclusive : Exclusive state)
    (nobody : ∀ u, (state.thread u).inside = false) (taken : state.count .iSendMutex = 0) (t : τ)
    (thread : Thread) : Exclusive (state.setThread t thread) := by
  have only : ∀ u, ((state.setThread t thread).thread u).inside = true → u = t := by
    intro u inside
    by_contra other
    rw [setThread_other state other, nobody u] at inside
    simp at inside
  refine ⟨exclusive.binary, ?_, fun _ _ => taken⟩
  intro u v insideU insideV
  rw [only u insideU, only v insideV]

omit [DecidableEq τ] in
/-- While `iSendMutex` is signalled nobody owns it. -/
theorem Exclusive.nobody {state : State τ} (exclusive : Exclusive state)
    (free : 0 < state.count .iSendMutex) (u : τ) : (state.thread u).inside = false := by
  by_contra inside
  have owned := exclusive.owned u (by simpa using inside)
  omega

/-- A signal on `iSendReqMutex` leaves the mutex with its owner. -/
theorem Exclusive.signalled {state next : State τ} (exclusive : Exclusive state)
    (signals : Signals state .iSendReqMutex next) : Exclusive next := by
  cases signals with
  | wakes here => exact exclusive.setThread fun _ => by rw [here]; rfl
  | raises none => exact exclusive.setCount (Nat.min_le_left ..)

/-- The owner gives the mutex to a waiting thread, or back. -/
theorem Exclusive.release {state next : State τ} (exclusive : Exclusive state) {t : τ}
    {pBuf : PBufPtr} (here : state.thread t = .releasing pBuf)
    (signals : Signals (state.setThread t (.adding pBuf)) .iSendMutex next) : Exclusive next := by
  have inside : (state.thread t).inside = true := by rw [here]; rfl
  have left : Exclusive (state.setThread t (.adding pBuf)) := exclusive.setThread fun _ => inside
  have nobody : ∀ u, ((state.setThread t (.adding pBuf)).thread u).inside = false := by
    intro u
    by_cases same : u = t
    · rw [same, setThread_same]
      rfl
    · rw [setThread_other state same]
      by_contra another
      exact same (exclusive.alone u t (by simpa using another) inside)
  cases signals with
  | @wakes u waiting here => exact left.enter nobody (exclusive.owned t inside) u _
  | raises none =>
    constructor
    · intro sema
      cases sema with
      | iSendMutex => exact Nat.min_le_left ..
      | iSendReqMutex => exact exclusive.binary .iSendReqMutex
    · exact left.alone
    · intro u another
      exact absurd another (by simp [nobody u])

/-- `QueueHandler` leaves the mutex with its owner. -/
theorem Exclusive.handles {state next : State τ} {results : Nat → SMapStatus}
    (exclusive : Exclusive state) (asked : ∀ sema, state.iSendReq = some sema → sema = .iSendReqMutex)
    (handles : Handles state results next) : Exclusive next := by
  cases handles with
  | quiet none => exact ⟨exclusive.binary, exclusive.alone, exclusive.owned⟩
  | signals asks signals =>
    obtain rfl := asked _ asks
    have before : Exclusive { state with req := (state.req.sendRequests results).1 } :=
      ⟨exclusive.binary, exclusive.alone, exclusive.owned⟩
    have after := before.signalled signals
    exact ⟨after.binary, after.alone, after.owned⟩

/-- Every step keeps the ownership of `iSendMutex` exclusive.

Proof: by the moves. A thread gets `iSendMutex` only while it is free, which means that
nobody is inside, and gives it back as it leaves. -/
theorem moves_exclusive [Fintype τ] {state next : State τ} {action : Action τ}
    (exclusive : Exclusive state) (heard : Heard state) (moves : Moves state action next) :
    Exclusive next := by
  cases moves with
  | noInterrupt | noTick => exact exclusive
  | tick | stack => exact ⟨exclusive.binary, exclusive.alone, exclusive.owned⟩
  | send => exact exclusive.setThread (by simp [Thread.inside])
  | @added t pBuf result woken here taken =>
    have same : Exclusive { state with req := (state.req.addToQueue pBuf result).2.1 } :=
      ⟨exclusive.binary, exclusive.alone, exclusive.owned⟩
    exact same.setThread (by simp [Thread.inside])
  | refused here refused outcome =>
    apply exclusive.setThread
    rcases outcome with rfl | rfl | rfl <;> simp [Thread.inside]
  | @acquire t sema pBuf result woken here free =>
    cases sema with
    | iSendMutex =>
      have last : state.count .iSendMutex - 1 = 0 := by
        have binary := exclusive.binary .iSendMutex
        omega
      have nobody := exclusive.nobody free
      have closed : Exclusive { state with
          count := Function.update state.count .iSendMutex (state.count .iSendMutex - 1) } := by
        refine ⟨?_, exclusive.alone, fun u inside => absurd inside (by simp [nobody u])⟩
        intro sema
        cases sema with
        | iSendMutex => exact (Nat.sub_le _ _).trans (exclusive.binary .iSendMutex)
        | iSendReqMutex => exact exclusive.binary .iSendReqMutex
      exact closed.enter nobody last t _
    | iSendReqMutex =>
      have counted := exclusive.setCount ((Nat.sub_le _ 1).trans (exclusive.binary .iSendReqMutex))
      exact counted.setThread fun _ => by simp [here, Thread.inside]
  | @block t sema pBuf result woken here taken =>
    apply exclusive.setThread
    rw [here]
    cases sema <;> simp [Thread.inside]
  | full here full =>
    have same : Exclusive { state with iSendReq := some .iSendReqMutex } :=
      ⟨exclusive.binary, exclusive.alone, exclusive.owned⟩
    exact same.setThread fun _ => by simp [here, Thread.inside]
  | room here room => exact exclusive.setThread fun _ => by simp [here, Thread.inside]
  | release here signals => exact exclusive.release here signals
  | interrupt handles => exact exclusive.handles (fun sema asks => (heard.asked sema asks).1) handles
  | timeout some timedOut handles =>
    have ticked : Exclusive state.tick := ⟨exclusive.binary, exclusive.alone, exclusive.owned⟩
    exact ticked.handles (fun sema asks => (heard.asked sema asks).1) handles

/-- The thread waits for `iSendReqMutex`, or is about to. -/
def Thread.AtRequest (thread : Thread) (pBuf : PBufPtr) : Prop :=
  thread = .waiting .iSendReqMutex pBuf ∨ thread = .blocked .iSendReqMutex pBuf

/-- A thread that is about to queue its request is inside `Send`. -/
theorem Thread.AtRequest.inside {thread : Thread} {pBuf : PBufPtr} (here : thread.AtRequest pBuf) :
    thread.inside = true := by
  rcases here with rfl | rfl <;> rfl

/-- A thread that has just got a semaphore is not yet at its request. -/
theorem Thread.acquired_away (sema : Handle) (pBuf other : PBufPtr) :
    ¬ (Thread.acquired sema pBuf).AtRequest other := by
  cases sema <;> simp [Thread.AtRequest, Thread.acquired]

omit [DecidableEq τ] in
/-- Two threads never wait for `iSendReqMutex`: both would own `iSendMutex`. -/
theorem Exclusive.same {state : State τ} (exclusive : Exclusive state) {t u : τ}
    {pBuf other : PBufPtr} (first : (state.thread t).AtRequest pBuf)
    (second : (state.thread u).AtRequest other) : t = u :=
  exclusive.alone t u first.inside second.inside

/-- Where one thread has left for another place, a thread found waiting for
`iSendReqMutex` is a different one and was there before. -/
theorem setThread_away {state : State τ} {t u : τ} {thread : Thread} {pBuf : PBufPtr}
    (away : ∀ other, ¬ thread.AtRequest other)
    (here : ((state.setThread t thread).thread u).AtRequest pBuf) :
    u ≠ t ∧ (state.setThread t thread).thread u = state.thread u := by
  have apart : u ≠ t := by
    rintro rfl
    rw [setThread_same] at here
    exact away pBuf here
  exact ⟨apart, setThread_other state apart thread⟩

/-- A thread that does not come to wait for `iSendReqMutex` needs no handle. -/
theorem Heard.setThread {state : State τ} (heard : Heard state) {t : τ} {thread : Thread}
    (away : ∀ pBuf, ¬ thread.AtRequest pBuf) : Heard (state.setThread t thread) := by
  constructor
  · exact heard.asked
  · intro u pBuf here
    obtain ⟨_, stayed⟩ := setThread_away away (Or.inl here)
    exact heard.waiting u pBuf (stayed.symm.trans here)
  · intro u pBuf here
    obtain ⟨_, stayed⟩ := setThread_away away (Or.inr here)
    exact heard.blocked u pBuf (stayed.symm.trans here)

omit [DecidableEq τ] in
/-- The other semaphore does not matter. -/
theorem Heard.setCount {state : State τ} (heard : Heard state) (count : Nat) :
    Heard { state with count := Function.update state.count .iSendMutex count } :=
  ⟨heard.asked, heard.waiting, heard.blocked⟩

/-- A signal on `iSendMutex` reaches nobody who waits for `iSendReqMutex`. -/
theorem Heard.released {state next : State τ} (heard : Heard state)
    (signals : Signals state .iSendMutex next) : Heard next := by
  cases signals with
  | wakes here => exact heard.setThread (Thread.acquired_away _ _)
  | raises none => exact heard.setCount _

/-- `QueueHandler` wakes the thread that waits for `iSendReqMutex`, or leaves it
a signal. -/
theorem Heard.handles {state next : State τ} {results : Nat → SMapStatus} (heard : Heard state)
    (exclusive : Exclusive state) (handles : Handles state results next) : Heard next := by
  have none := handles.kept.2
  constructor
  · intro sema asks
    simp [none] at asks
  · intro t pBuf here
    apply Or.inr
    cases handles with
    | quiet quiet => exact (heard.waiting t pBuf here).resolve_left (by simp [quiet])
    | signals asks signals =>
      obtain ⟨rfl, _⟩ := heard.asked _ asks
      cases signals with
      | raises nobody => simp
      | @wakes u other waiting =>
        obtain ⟨apart, stayed⟩ := setThread_away (Thread.acquired_away _ other) (Or.inl here)
        exact absurd (exclusive.same (Or.inl (stayed.symm.trans here)) (Or.inr waiting)) apart
  · intro t pBuf here
    cases handles with
    | quiet quiet => exact absurd (heard.blocked t pBuf here) (by simp [quiet])
    | signals asks signals =>
      obtain ⟨rfl, _⟩ := heard.asked _ asks
      cases signals with
      | raises nobody => exact absurd here (nobody t pBuf)
      | @wakes u other waiting =>
        obtain ⟨apart, stayed⟩ := setThread_away (Thread.acquired_away _ other) (Or.inr here)
        exact absurd (exclusive.same (Or.inr (stayed.symm.trans here)) (Or.inr waiting)) apart

/-- Every step keeps what a waiting thread relies on.

Proof: by the moves. A thread stores its handle before it waits, while the queue is full,
and the handle is taken out only by the handler that signals it. As only one thread is
inside `Send`, no other one overwrites it. -/
theorem moves_heard [Fintype τ] {state next : State τ} {action : Action τ} (heard : Heard state)
    (exclusive : Exclusive state) (timely : Timely state.req) (moves : Moves state action next) :
    Heard next := by
  cases moves with
  | noInterrupt | noTick => exact heard
  | tick | stack => exact ⟨heard.asked, heard.waiting, heard.blocked⟩
  | send => exact heard.setThread fun pBuf => by simp [Thread.AtRequest]
  | @added t pBuf result woken here taken =>
    have adds := Requests.addToQueue_adds timely.inRange taken
    have same : Heard { state with req := (state.req.addToQueue pBuf result).2.1 } := by
      constructor
      · intro sema asks
        obtain ⟨named, full⟩ := heard.asked sema asks
        have more := adds.more
        have count := adds.inRange.count
        exact ⟨named, by change (state.req.addToQueue pBuf result).2.1.iReqCNT = _; omega⟩
      · exact heard.waiting
      · exact heard.blocked
    exact same.setThread fun pBuf => by simp [Thread.AtRequest]
  | refused here refused outcome =>
    apply heard.setThread
    intro pBuf
    rcases outcome with rfl | rfl | rfl <;> simp [Thread.AtRequest]
  | @acquire t sema pBuf result woken here free =>
    cases sema with
    | iSendMutex =>
      exact (heard.setCount _).setThread (Thread.acquired_away _ _)
    | iSendReqMutex =>
      constructor
      · exact heard.asked
      · intro u other waiting
        obtain ⟨apart, stayed⟩ := setThread_away (Thread.acquired_away _ pBuf) (Or.inl waiting)
        exact absurd (exclusive.same (Or.inl (stayed.symm.trans waiting)) (Or.inl here)) apart
      · intro u other blocked
        obtain ⟨_, stayed⟩ := setThread_away (Thread.acquired_away _ pBuf) (Or.inr blocked)
        exact heard.blocked u other (stayed.symm.trans blocked)
  | @block t sema pBuf result woken here taken =>
    cases sema with
    | iSendMutex => exact heard.setThread fun pBuf => by simp [Thread.AtRequest]
    | iSendReqMutex =>
      have asked := (heard.waiting t pBuf here).resolve_right (by omega)
      exact ⟨heard.asked, fun _ _ _ => Or.inl asked, fun _ _ _ => asked⟩
  | full here full =>
    refine ⟨?_, fun _ _ _ => Or.inl rfl, fun _ _ _ => rfl⟩
    intro sema asks
    exact ⟨(Option.some.inj asks).symm, full⟩
  | room here room => exact heard.setThread fun pBuf => by simp [Thread.AtRequest]
  | @release t pBuf result woken next here signals =>
    have left : Heard (state.setThread t (.adding pBuf)) :=
      heard.setThread fun other => by simp [Thread.AtRequest]
    exact left.released signals
  | interrupt handles => exact heard.handles exclusive handles
  | timeout some timedOut handles =>
    have ticked : Heard state.tick := ⟨heard.asked, heard.waiting, heard.blocked⟩
    exact ticked.handles ⟨exclusive.binary, exclusive.alone, exclusive.owned⟩ handles

/-- The invariant of the senders. -/
structure Guarded (state : State τ) : Prop where
  timely : Timely state.req
  exclusive : Exclusive state
  heard : Heard state

omit [DecidableEq τ] in
/-- At the start no thread waits, so none has to be guarded. -/
theorem initialised_guarded {state : State τ} (initial : Initialised state) : Guarded state where
  timely := by
    have inRange : InRange state.req := by
      constructor
      · rw [initial.empty]
      · simp [initial.empty, maxReqCnt]
      · rw [initial.first]
      · simp [initial.first, maxReqCnt]
    constructor
    · exact inRange
    · rw [initial.timeout]
    · rw [initial.timeout]
      decide
  exclusive := by
    have outside : ∀ t, (state.thread t).inside = false := by
      intro t
      rw [initial.idle t]
      rfl
    constructor
    · intro sema
      rw [initial.signalled sema]
    · intro t u inside
      simp [outside t] at inside
    · intro t inside
      simp [outside t] at inside
  heard := by
    constructor
    · intro sema asks
      simp [initial.quiet] at asks
    · intro t pBuf here
      simp [initial.idle t] at here
    · intro t pBuf here
      simp [initial.idle t] at here

/-- Every state reached meets the invariant. -/
theorem run_guarded [Fintype τ] {steps : List (State τ × Action τ)} {state : State τ}
    (run : SendRun steps state) : Guarded state := by
  refine Runs.state_invariant Guarded (fun _ => initialised_guarded) ?_ run
  rintro before action next ⟨timely, exclusive, heard⟩ taken
  have moves := step_moves taken
  exact ⟨moves_timely timely moves, moves_exclusive exclusive heard moves,
    moves_heard heard exclusive timely moves⟩

/-- `QueueHandler` wakes a thread blocked on `iSendReqMutex`. -/
theorem Heard.woken {state next : State τ} {results : Nat → SMapStatus} (heard : Heard state)
    (exclusive : Exclusive state) {t : τ} {pBuf : PBufPtr}
    (blocked : state.thread t = .blocked .iSendReqMutex pBuf)
    (handles : Handles state results next) : next.thread t = .releasing pBuf := by
  have asked := heard.blocked t pBuf blocked
  cases handles with
  | quiet none => simp [asked] at none
  | signals asks signals =>
    obtain ⟨rfl, _⟩ := heard.asked _ asks
    cases signals with
    | raises nobody => exact absurd blocked (nobody t pBuf)
    | @wakes u other waiting =>
      obtain rfl : t = u := exclusive.same (Or.inr blocked) (Or.inr waiting)
      obtain rfl : pBuf = other := by simpa [blocked] using waiting
      exact setThread_same _ _ _

end Ps2Eth.SmapLinux.Senders
