import Ps2Eth.SmapLinux.StrandedSenders

/-!
# Order and references of the request queue

However `Send`, `SMapInterrupt` and `Timer` interleave, the request queue is a
work queue: `SMap_Send` gets the accepted frames in the order they were
accepted, and no frame again after a result other than `SMap_TX`. A frame that
waits holds one reference more than the protocol stack accounts for. A `Send`
that fails has touched neither the queue nor a reference.
-/

namespace Ps2Eth.SmapLinux.Senders

open Requests (InRange tried)
open Runs (observed)
open WorkQueue (Event Walk arrivals settlements)

variable {τ : Type} [DecidableEq τ]

/-- What a step does with accepted frames: `AddToQueue` accepts one, and
`SMap_Send` is called for accepted ones. -/
def events (state : State τ) (action : Action τ) : List (Event PBufPtr) :=
  match action with
  | .run t result _ =>
      match state.thread t with
      | .adding pBuf =>
          let added := state.req.addToQueue pBuf result
          if added.1 = .ok then .arrived pBuf :: added.2.2.map tried else []
      | _ => []
  | .smapInterrupt tx results _ =>
      if tx then (state.req.sendRequests results).2.map tried else []
  | .timer results _ =>
      if state.req.iReqCNT ≠ 0 ∧ state.tick.TimedOut then
        (state.tick.req.sendRequests results).2.map tried
      else []
  | _ => []

/-- `QueueHandler` runs in this step, from `SMapInterrupt` or from `Timer`. -/
def Action.HandlesQueue (state : State τ) : Action τ → Prop
  | .smapInterrupt tx _ _ => tx = true
  | .timer _ _ => state.req.iReqCNT ≠ 0 ∧ state.tick.TimedOut
  | _ => False

/-- The references the protocol stack took and did not give back. -/
def stackReferences (steps : List (State τ × Action τ)) (pBuf : PBufPtr) : Int :=
  steps.foldl
    (fun references entry =>
      match entry.2 with
      | .stack other taken => if other = pBuf then references + taken else references
      | _ => references) 0

/-- The state a run started in. -/
def startOf (steps : List (State τ × Action τ)) (state : State τ) : State τ :=
  (steps.head?.map Prod.fst).getD state

/-- A step of the thread, in `Send` or into it. -/
def Action.takenBy (t : τ) : Action τ → Bool
  | .send u _ | .run u _ _ => u = t
  | _ => false

/-- The steps of the thread's last call of `Send`. -/
def callSteps (t : τ) (steps : List (State τ × Action τ)) : List (State τ × Action τ) :=
  steps.foldl
    (fun call entry =>
      match entry.2 with
      | .send u _ => if u = t then [entry] else call
      | .run u _ _ => if u = t then call ++ [entry] else call
      | _ => call) []

/-- What the request queue promises after a run. -/
structure Faithful [Fintype τ] (steps : List (State τ × Action τ)) (state : State τ) : Prop where
  count : 0 ≤ state.req.iReqCNT ∧ state.req.iReqCNT ≤ maxReqCnt
  index : 0 ≤ state.req.iReqNR ∧ state.req.iReqNR < maxReqCnt
  /-- The accepted frames are those `SMap_Send` is done with and those waiting. -/
  order : arrivals (observed events steps) =
    settlements (observed events steps) ++ state.req.queue
  /-- `SMap_Send` is only called for the first frame it is not done with. -/
  inTurn : ∀ early item settles, early ++ [.tried item settles] <+: observed events steps →
    (arrivals early)[(settlements early).length]? = some item
  /-- Where `QueueHandler` ran, `SendRequests` went on until the queue was empty or
  `SMap_Send` had returned `SMap_TX`. -/
  ends : ∀ entry ∈ steps, entry.2.HandlesQueue entry.1 → ∀ next,
    entry.1.step entry.2 = some next → next.req.iReqCNT = 0 ∨
      ∃ pBuf, (events entry.1 entry.2).getLast? = some (.tried pBuf false)
  references : ∀ pBuf, state.req.ref pBuf = (startOf steps state).req.ref pBuf +
    stackReferences steps pBuf + state.req.queue.count pBuf
  failed : ∀ t res, state.thread t = .returned res → res ≠ .errOk →
    ∀ entry ∈ callSteps t steps, ∀ next, entry.1.step entry.2 = some next → next.req = entry.1.req

omit [DecidableEq τ] in
/-- The state a run started from does not change as the run goes on. -/
theorem startOf_snoc (steps : List (State τ × Action τ)) (state next : State τ) (action : Action τ) :
    startOf (steps ++ [(state, action)]) next = startOf steps state := by
  cases steps <;> rfl

/-- The references taken in a step. -/
def stackTaken (action : Action τ) (pBuf : PBufPtr) : Int :=
  match action with
  | .stack other references => if other = pBuf then references else 0
  | _ => 0

omit [DecidableEq τ] in
/-- The references that the stack has taken grow by those of the last step. -/
theorem stackReferences_snoc (steps : List (State τ × Action τ)) (state : State τ)
    (action : Action τ) (pBuf : PBufPtr) :
    stackReferences (steps ++ [(state, action)]) pBuf =
      stackReferences steps pBuf + stackTaken action pBuf := by
  rw [stackReferences, List.foldl_append, ← stackReferences, List.foldl_cons, List.foldl_nil]
  cases action with
  | stack other references =>
    simp only [stackTaken]
    split
    · rfl
    · exact (Int.add_zero _).symm
  | send | run | smapInterrupt | timer => exact (Int.add_zero _).symm

/-- What a step does to the frames and references of the driver's data. -/
structure Served (state : State τ) (action : Action τ) (next : State τ) : Prop where
  walk : ∀ earlier, Walk earlier state.req.queue →
    Walk (earlier ++ events state action) next.req.queue
  references : ∀ pBuf, next.req.ref pBuf - next.req.queue.count pBuf =
    state.req.ref pBuf - state.req.queue.count pBuf + stackTaken action pBuf

omit [DecidableEq τ] in
/-- A step that leaves the driver's data alone serves nothing. -/
theorem served_same {state next : State τ} {action : Action τ} (same : next.req = state.req)
    (quiet : events state action = []) (owned : ∀ pBuf, stackTaken action pBuf = 0) :
    Served state action next := by
  constructor
  · intro earlier walk
    rw [quiet, List.append_nil, same]
    exact walk
  · intro pBuf
    rw [same, owned, Int.add_zero]

/-- `QueueHandler` serves the queue from its front. -/
theorem Handles.served {state next : State τ} {results : Nat → SMapStatus}
    (handles : Handles state results next) (inRange : InRange state.req) :
    (∀ earlier, Walk earlier state.req.queue →
      Walk (earlier ++ (state.req.sendRequests results).2.map tried) next.req.queue) ∧
    ∀ pBuf, next.req.ref pBuf - next.req.queue.count pBuf =
      state.req.ref pBuf - state.req.queue.count pBuf := by
  have sends := Requests.sendRequests_sends inRange results
  rw [handles.kept.1]
  exact ⟨sends.walk, sends.ref⟩

/-- `QueueHandler` ends with an empty queue, or where the transmit resources are
exhausted. -/
theorem Handles.ends {state next : State τ} {results : Nat → SMapStatus}
    (handles : Handles state results next) (inRange : InRange state.req) :
    next.req.iReqCNT = 0 ∨
      ∃ pBuf, ((state.req.sendRequests results).2.map tried).getLast? = some (.tried pBuf false) := by
  rw [handles.kept.1]
  rcases (Requests.sendRequests_sends inRange results).ends with empty | ⟨pBuf, last⟩
  · exact Or.inl empty
  · refine Or.inr ⟨pBuf, ?_⟩
    rw [List.getLast?_map, last]
    rfl

/-- Wherever a step runs `QueueHandler`, no frame is left behind without a reason. -/
theorem moves_ends [Fintype τ] {state next : State τ} {action : Action τ}
    (timely : Timely state.req) (moves : Moves state action next)
    (handled : action.HandlesQueue state) :
    next.req.iReqCNT = 0 ∨ ∃ pBuf, (events state action).getLast? = some (.tried pBuf false) := by
  have inRange := timely.inRange
  cases moves with
  | send | added | refused | acquire | block | full | room | release | stack => exact handled.elim
  | noInterrupt => cases handled
  | noTick empty => exact absurd empty handled.1
  | tick some early => exact absurd handled.2 early
  | interrupt handles => exact handles.ends inRange
  | timeout some timedOut handles =>
    simp only [events, ne_eq, some, not_false_eq_true, timedOut, and_self, if_true]
    exact handles.ends (tick_inRange inRange)

/-- Every step serves the queue in order.

Proof: by the moves. Only a thread that queues its request and the handler, by interrupt
or timeout, try frames, and for each of them its spec lemma says what was tried in which
order. -/
theorem moves_served [Fintype τ] {state next : State τ} {action : Action τ}
    (timely : Timely state.req) (moves : Moves state action next) : Served state action next := by
  have inRange := timely.inRange
  cases moves with
  | send => exact served_same rfl rfl fun _ => rfl
  | refused here refused outcome =>
    refine served_same rfl ?_ fun _ => rfl
    simp [events, here, refused]
  | acquire here | block here | full here | room here =>
    refine served_same rfl ?_ fun _ => rfl
    simp [events, here]
  | release here signals =>
    refine served_same signals.kept.1 ?_ fun _ => rfl
    simp [events, here]
  | noInterrupt => exact served_same rfl rfl fun _ => rfl
  | noTick empty =>
    refine served_same rfl ?_ fun _ => rfl
    simp [events, empty]
  | @added t pBuf result woken here taken =>
    have adds := Requests.addToQueue_adds inRange taken
    constructor
    · intro earlier walk
      have accepted : events state (.run t result woken) =
          .arrived pBuf :: (state.req.addToQueue pBuf result).2.2.map tried := by
        simp [events, here, taken]
      rw [accepted]
      exact adds.walk earlier walk
    · intro other
      exact (adds.ref other).trans (Int.add_zero _).symm
  | interrupt handles =>
    obtain ⟨walk, references⟩ := handles.served inRange
    exact ⟨walk, fun pBuf => (references pBuf).trans (Int.add_zero _).symm⟩
  | timeout some timedOut handles =>
    obtain ⟨walk, references⟩ := handles.served (tick_inRange inRange)
    refine ⟨?_, fun pBuf => (references pBuf).trans (Int.add_zero _).symm⟩
    intro earlier waiting
    simp only [events, ne_eq, some, not_false_eq_true, timedOut, and_self, if_true]
    exact walk earlier waiting
  | tick some early =>
    constructor
    · intro earlier walk
      simp only [events, early, and_false, if_false, List.append_nil]
      exact walk
    · intro pBuf
      exact (Int.add_zero _).symm
  | stack pBuf references =>
    constructor
    · intro earlier walk
      simp only [events, List.append_nil]
      exact walk
    · intro other
      have kept : (state.req.addReferences pBuf references).queue = state.req.queue := rfl
      simp only [kept, stackTaken]
      by_cases same : pBuf = other
      · subst same
        simp only [Requests.addReferences, Function.update_self, if_pos]
        omega
      · simp only [Requests.addReferences, Function.update_of_ne (Ne.symm same), if_neg same]
        omega

/-- The call grows with the thread's own steps only. -/
theorem callSteps_snoc (t : τ) (steps : List (State τ × Action τ)) (state : State τ)
    (action : Action τ) :
    callSteps t (steps ++ [(state, action)]) = match action with
      | .send u _ => if u = t then [(state, action)] else callSteps t steps
      | .run u _ _ => if u = t then callSteps t steps ++ [(state, action)] else callSteps t steps
      | _ => callSteps t steps := by
  rw [callSteps, List.foldl_append]
  cases action <;> rfl

/-- A thread that has returned stays so until it acts. -/
theorem moves_returned [Fintype τ] {state next : State τ} {action : Action τ}
    (moves : Moves state action next) {t : τ} (other : action.takenBy t = false) {res : ErrT}
    (returned : state.thread t = .returned res) : next.thread t = .returned res := by
  have signalled {before after : State τ} {sema : Handle} (signals : Signals before sema after)
      (stays : before.thread t = .returned res) : after.thread t = .returned res := by
    cases signals with
    | @wakes u pBuf here =>
      have notWoken : t ≠ u := by
        rintro rfl
        simp [stays] at here
      exact (setThread_other before notWoken _).trans stays
    | raises => exact stays
  have handled {before after : State τ} {results : Nat → SMapStatus}
      (handles : Handles before results after) (stays : before.thread t = .returned res) :
      after.thread t = .returned res := by
    cases handles with
    | quiet => exact stays
    | signals asked signals =>
      have woken := signalled signals stays
      exact woken
  cases moves with
  | noInterrupt | noTick | tick | stack => exact returned
  | interrupt handles => exact handled handles returned
  | timeout some timedOut handles => exact handled handles returned
  | @send u | @added u | @refused u | @acquire u | @block u | @full u | @room u =>
    have notHere : t ≠ u := by
      rintro rfl
      simp [Action.takenBy] at other
    simpa [State.setThread, Function.update_of_ne notHere] using returned
  | @release u pBuf result woken next here signals =>
    have notHere : t ≠ u := by
      rintro rfl
      simp [Action.takenBy] at other
    exact signalled signals ((setThread_other state notHere _).trans returned)

/-- A thread's own step changes the driver's data only if it ends `Send` with
`ERR_OK`. -/
theorem moves_untouched [Fintype τ] {state next : State τ} {action : Action τ}
    (moves : Moves state action next) {t : τ} (own : action.takenBy t = true)
    (notTaken : next.thread t ≠ .returned .errOk) : next.req = state.req := by
  cases moves with
  | noInterrupt | noTick | tick | stack | interrupt | timeout => simp [Action.takenBy] at own
  | send | refused | acquire | block | full | room => rfl
  | release here signals => exact signals.kept.1
  | @added u =>
    obtain rfl : u = t := by simpa [Action.takenBy] using own
    exact absurd (setThread_same _ u _) notTaken

/-- As long as a call has not ended with `ERR_OK`, none of its steps has changed
the driver's data. -/
def Untouched [Fintype τ] (steps : List (State τ × Action τ)) (state : State τ) : Prop :=
  ∀ t, state.thread t ≠ .returned .errOk → ∀ entry ∈ callSteps t steps, ∀ next,
    entry.1.step entry.2 = some next → next.req = entry.1.req

/-- A step keeps this: where it is a step of the call itself that changes the queue, the
frame was taken, and the call returns `ERR_OK`. -/
theorem step_untouched [Fintype τ] {steps : List (State τ × Action τ)} {state next : State τ}
    {action : Action τ} (untouched : Untouched steps state) (taken : state.step action = some next) :
    Untouched (steps ++ [(state, action)]) next := by
  intro t notTaken entry member after happened
  have moves := step_moves taken
  by_cases own : action.takenBy t = true
  · have here : ∀ after, state.step action = some after → after.req = state.req := by
      intro after again
      obtain rfl : next = after := Option.some.inj (taken.symm.trans again)
      exact moves_untouched moves own notTaken
    rw [callSteps_snoc] at member
    cases action with
    | send u pBuf =>
      obtain rfl : u = t := by simpa [Action.takenBy] using own
      simp only [if_true, List.mem_singleton] at member
      subst member
      exact here after happened
    | run u result woken =>
      obtain rfl : u = t := by simpa [Action.takenBy] using own
      simp only [if_true, List.mem_append, List.mem_singleton] at member
      rcases member with earlier | rfl
      · have before : state.thread u ≠ .returned .errOk := by
          intro returned
          simp [State.step, State.stepSend, returned] at taken
        exact untouched u before entry earlier after happened
      · exact here after happened
    | smapInterrupt | timer | stack => simp [Action.takenBy] at own
  · have before : state.thread t ≠ .returned .errOk := fun returned =>
      notTaken (moves_returned moves (by simpa using own) returned)
    have kept : callSteps t (steps ++ [(state, action)]) = callSteps t steps := by
      rw [callSteps_snoc]
      cases action <;> simp_all only [Action.takenBy, decide_eq_true_eq, if_false]
    rw [kept] at member
    exact untouched t before entry member after happened

/-- The requests served over a run. -/
structure Ordered [Fintype τ] (steps : List (State τ × Action τ)) (state : State τ) : Prop where
  walk : Walk (observed events steps) state.req.queue
  references : ∀ pBuf, state.req.ref pBuf - state.req.queue.count pBuf =
    (startOf steps state).req.ref pBuf + stackReferences steps pBuf
  untouched : Untouched steps state

/-- At the start nothing was accepted and nothing waits. -/
theorem initialised_ordered [Fintype τ] {state : State τ} (initial : Initialised state) :
    Ordered [] state := by
  have empty : state.req.queue = [] := Requests.queue_empty initial.empty
  refine ⟨?_, ?_, ?_⟩
  · rw [empty]
    exact Walk.empty
  · intro pBuf
    simp [empty, startOf, stackReferences]
  · intro t _ entry member
    simp [callSteps] at member

/-- In every state reached the requests were served in order. -/
theorem run_ordered [Fintype τ] {steps : List (State τ × Action τ)} {state : State τ}
    (run : SendRun steps state) : Ordered steps state := by
  induction run with
  | start initial => exact initialised_ordered initial
  | @snoc steps state next action before taken inductionHypothesis =>
    obtain ⟨walk, references, untouched⟩ := inductionHypothesis
    have served := moves_served (run_guarded before).timely (step_moves taken)
    refine ⟨?_, ?_, step_untouched untouched taken⟩
    · rw [Runs.observed_snoc]
      exact served.walk _ walk
    · intro pBuf
      rw [startOf_snoc, stackReferences_snoc, served.references pBuf, references pBuf, Int.add_assoc]

/-- In every state reached the request queue has kept its promises.

Proof: from two invariants of the run: the queue is in range, with a timeout that is
counted only while it is full, and what was accepted is what was settled and then what
waits. What the handler ends with is a fact of its loop, and a call that fails is one
whose steps have left the driver's data alone. -/
theorem request_queue_faithful [Fintype τ] {steps : List (State τ × Action τ)} {state : State τ}
    (run : SendRun steps state) : Faithful steps state := by
  have inRange := (run_guarded run).timely.inRange
  obtain ⟨walk, references, untouched⟩ := run_ordered run
  refine ⟨⟨inRange.notNegative, inRange.count⟩, ⟨inRange.firstNotNegative, inRange.first⟩,
    walk.conserved, ?_, ?_, ?_, ?_⟩
  · intro early item settles tried
    exact walk.in_turn tried
  · intro entry member handled next taken
    obtain ⟨early, before⟩ := Runs.run_entry run member
    exact moves_ends (run_guarded before).timely (step_moves taken) handled
  · intro pBuf
    have reference := references pBuf
    omega
  · intro t res returned failed
    apply untouched t
    rw [returned]
    simpa using failed

/-- Two frames find no room, and a transmit interrupt sends the first of them. -/
theorem request_queue_faithful_two : ∃ steps, ∃ state : State (Fin 2), SendRun steps state ∧
    state.req.queue = [2] ∧ Faithful steps state := by
  obtain ⟨steps, state, run, queue⟩ := Runs.run_of_performed State.step
    (fun _ (state : State (Fin 2)) => state.req.queue = [2]) idleDriver_initialised
    [.send 0 1, .run 0 .tx none, .send 1 2, .run 1 .tx none,
      .smapInterrupt true (fun turn => if turn = 0 then .ok else .tx) none] (by decide +kernel)
  exact ⟨steps, state, run, queue, request_queue_faithful run⟩

end Ps2Eth.SmapLinux.Senders
