import Ps2Eth.SmapLinux.RequestOrder
import Ps2Eth.SmapLinux.TxFrames

/-!
# From `Send` to the transmit memory of the smap-linux driver

The threads in `Send`, `SMapInterrupt` and `Timer` of `main.c` run on the transmit ring of
`smap.c`: what `SMap_Send` answers them is what it does to the ring. `HandleTXInt` goes
turn by turn, with no thread in between; whatever calls `QueueHandler`, `SMap_Send` runs
to its end.

A frame keeps its bytes while the driver holds its pbuf.
-/

namespace Ps2Eth.SmapLinux.Sending

open WorkQueue (arrivals settlements)
open Senders (events)
open Requests (tried)

variable {τ : Type}

/-- The calls of `SMap_Send` in a step, with their results. -/
def callsOf (state : Senders.State τ) : Senders.Action τ → List Call
  | .run t result _ =>
      match state.thread t with
      | .adding pBuf => (state.req.addToQueue pBuf result).2.2
      | _ => []
  | .smapInterrupt tx results _ => if tx then (state.req.sendRequests results).2 else []
  | .timer results _ =>
      if state.req.iReqCNT ≠ 0 ∧ state.tick.TimedOut then (state.tick.req.sendRequests results).2
      else []
  | _ => []

/-- A call that settles its frame. -/
def settles (call : Call) : Bool := decide (call.2 ≠ .tx)

/-- A call that sends its frame. -/
def sends (call : Call) : Bool := decide (call.2 = .ok)

/-- The calls of a step that settle accepted frames. A frame that `AddToQueue` refuses is
none. -/
def verdicts (state : Senders.State τ) (action : Senders.Action τ) : List Call :=
  match action with
  | .run t result _ =>
      match state.thread t with
      | .adding pBuf =>
          if (state.req.addToQueue pBuf result).1 = .ok then
            (state.req.addToQueue pBuf result).2.2.filter settles
          else []
      | _ => []
  | _ => (callsOf state action).filter settles

/-- What is settled by a list of calls are the frames of those calls that settle. -/
theorem settlements_tried (calls : List Call) :
    settlements (calls.map tried) = (calls.filter settles).map Prod.fst := by
  induction calls with
  | nil => rfl
  | cons call rest inductionHypothesis =>
    obtain ⟨pBuf, result⟩ := call
    have next : settlements ((pBuf, result) :: rest |>.map tried) =
        (if settles (pBuf, result) then [pBuf] else []) ++ settlements (rest.map tried) := by
      cases result <;> rfl
    rw [next, inductionHypothesis, List.filter_cons]
    cases settles (pBuf, result) <;> rfl

/-- The frames settled are those of the verdicts. -/
theorem settlements_events (state : Senders.State τ) (action : Senders.Action τ) :
    settlements (events state action) = (verdicts state action).map Prod.fst := by
  cases action with
  | send | stack => rfl
  | run t result woken =>
    cases here : state.thread t with
    | adding pBuf =>
      simp only [events, verdicts, here]
      split
      · exact settlements_tried _
      · rfl
    | _ => simp only [events, verdicts, here]; rfl
  | smapInterrupt tx results woken =>
    cases tx with
    | true => exact settlements_tried _
    | false => rfl
  | timer results woken =>
    simp only [events, verdicts, callsOf]
    split
    · exact settlements_tried _
    · rfl

/-- A frame that `AddToQueue` refuses is not sent. -/
theorem addToQueue_unsent {req : Requests} {pBuf : PBufPtr} {result : SMapStatus}
    (refused : (req.addToQueue pBuf result).1 ≠ .ok) :
    (req.addToQueue pBuf result).2.2.filter sends = [] := by
  by_cases empty : req.iReqCNT = 0
  · cases result <;> simp [Requests.addToQueue, empty, sends] at refused ⊢
  · by_cases room : req.iReqCNT < maxReqCnt
    · simp [Requests.addToQueue, empty, room] at refused
    · simp [Requests.addToQueue, empty, room]

/-- The frames sent are among them. -/
theorem sends_verdicts (state : Senders.State τ) (action : Senders.Action τ) :
    (callsOf state action).filter sends = (verdicts state action).filter sends := by
  have among (calls : List Call) : (calls.filter settles).filter sends = calls.filter sends := by
    rw [List.filter_filter]
    refine List.filter_congr fun call _ => ?_
    obtain ⟨pBuf, result⟩ := call
    cases result <;> rfl
  cases action with
  | run t result woken =>
    cases here : state.thread t with
    | adding pBuf =>
      simp only [callsOf, verdicts, here]
      split
      · exact (among _).symm
      · next refused => exact addToQueue_unsent refused
    | _ => simp only [callsOf, verdicts, here]
  | send | smapInterrupt | timer | stack => exact (among _).symm

/-- What `SMap_Send` does to the ring when it is called for these frames, with what it
reads of the EMAC; none if it answers otherwise. -/
def perform (packet : PBufPtr → PBuf) (ring : State) :
    List (Call × (Nat → Bool)) → Option (List (State × Action) × State)
  | [] => some ([], ring)
  | (call, gnp) :: rest =>
      if (sMapSend ring.smap (packet call.1) gnp).1 = call.2 then
        (ring.step (.send (packet call.1) gnp)).bind fun next =>
          (perform packet next rest).map fun done =>
            ((ring, .send (packet call.1) gnp) :: done.1, done.2)
      else none

/-- The calls of a step, each with what it reads of the EMAC. -/
def asked (state : Senders.State τ) (action : Senders.Action τ) (gnp : Nat → Nat → Bool) :
    List (Call × (Nat → Bool)) :=
  (callsOf state action).zipIdx.map fun entry => (entry.1, gnp entry.2)

/-- The calls done on the ring extend its run. -/
theorem perform_run (packet : PBufPtr → PBuf) {calls : List (Call × (Nat → Bool))}
    {early steps : List (State × Action)} {ring final : State} (run : TxRun early ring)
    (done : perform packet ring calls = some (steps, final)) : TxRun (early ++ steps) final := by
  induction calls generalizing early steps ring with
  | nil =>
    obtain ⟨rfl, rfl⟩ := Prod.mk.inj (Option.some.inj done)
    rw [List.append_nil]
    exact run
  | cons entry rest inductionHypothesis =>
    obtain ⟨call, gnp⟩ := entry
    rw [perform] at done
    split at done
    · obtain ⟨next, taken, later⟩ := Option.bind_eq_some_iff.mp done
      obtain ⟨more, performed, same⟩ := Option.map_eq_some_iff.mp later
      obtain ⟨rfl, rfl⟩ := Prod.mk.inj same
      have longer := inductionHypothesis (Runs.Run.snoc run taken) performed
      rw [List.append_assoc] at longer
      exact longer
    · cases done

/-- The frames that they send are those of the calls that were answered with `SMap_OK`. -/
theorem perform_sent (packet : PBufPtr → PBuf) {calls : List (Call × (Nat → Bool))}
    {steps : List (State × Action)} {ring final : State}
    (done : perform packet ring calls = some (steps, final)) :
    Runs.observed framesSent steps =
      ((calls.map Prod.fst).filter sends).map fun call => (packet call.1).bytes := by
  induction calls generalizing steps ring with
  | nil =>
    obtain ⟨rfl, rfl⟩ := Prod.mk.inj (Option.some.inj done)
    rfl
  | cons entry rest inductionHypothesis =>
    obtain ⟨⟨pBuf, result⟩, gnp⟩ := entry
    rw [perform] at done
    split at done
    next answer =>
      obtain ⟨next, taken, later⟩ := Option.bind_eq_some_iff.mp done
      obtain ⟨more, performed, same⟩ := Option.map_eq_some_iff.mp later
      obtain ⟨rfl, rfl⟩ := Prod.mk.inj same
      have rest := inductionHypothesis performed
      have first : framesSent ring (.send (packet pBuf) gnp) =
          if sends (pBuf, result) then [(packet pBuf).bytes] else [] := by
        simp only [framesSent, sends, ← sMapSend_ok_iff, answer, decide_eq_true_eq]
      rw [Runs.observed, List.flatMap_cons, first, List.map_cons, List.filter_cons]
      rw [Runs.observed] at rest
      rw [rest]
      cases sends (pBuf, result) <;> rfl
    next => cases done

/-- The request queue with the threads that use it, and the transmit ring. -/
structure TxPath (τ : Type) where
  requests : Senders.State τ
  ring : State

/-- What happens next on the whole transmit path: a step of the threads and handlers, or
of the ring. -/
inductive PathAction (τ : Type) where
  /-- A step of the threads and handlers, with what `SMap_Send` reads of the EMAC in each of
  its calls. -/
  | requests (action : Senders.Action τ) (gnp : Nat → Nat → Bool)
  /-- A turn of `HandleTXInt`, or a step of the hardware or the link. -/
  | ring (action : Action)

/-- One step, if it is possible. -/
def TxPath.step [DecidableEq τ] [Fintype τ] (packet : PBufPtr → PBuf) (path : TxPath τ) :
    PathAction τ → Option (TxPath τ)
  | .requests action gnp =>
      if path.ring.txInt = none then
        (path.requests.step action).bind fun requests =>
          (perform packet path.ring (asked path.requests action gnp)).map fun done =>
            ⟨requests, done.2⟩
      else none
  | .ring (.send _ _) => none
  | .ring action => (path.ring.step action).map fun ring => { path with ring := ring }

/-- `SMapInit` was called: no request waits, no thread is in `Send`, and no frame is in
flight. -/
structure Begun (path : TxPath τ) : Prop where
  requests : Senders.Initialised path.requests
  ring : Initialised path.ring

/-- What a step is for the threads. -/
def requestSteps (path : TxPath τ) : PathAction τ → List (Senders.State τ × Senders.Action τ)
  | .requests action _ => [(path.requests, action)]
  | .ring _ => []

/-- What a step is for the ring. -/
def ringSteps (packet : PBufPtr → PBuf) (path : TxPath τ) : PathAction τ → List (State × Action)
  | .requests action gnp =>
      ((perform packet path.ring (asked path.requests action gnp)).map Prod.fst).getD []
  | .ring action => [(path.ring, action)]

section Runs

variable (packet : PBufPtr → PBuf) (steps : List (TxPath τ × PathAction τ))

/-- The run of the threads in a run of both. -/
def requestRun : List (Senders.State τ × Senders.Action τ) := Runs.observed requestSteps steps

/-- The run of the ring. -/
def ringRun : List (State × Action) := Runs.observed (ringSteps packet) steps

/-- The frames that `AddToQueue` accepted, in order. -/
def acceptedFrames : List PBufPtr := arrivals (Runs.observed events (requestRun steps))

/-- The calls of `SMap_Send` that settled them, in order. -/
def settledFrames : List Call := Runs.observed verdicts (requestRun steps)

end Runs

/-- What is transmitted, as seen after some steps: the frames accepted are those settled,
in order, and those that wait in the request queue; of those settled the ones that
`SMap_Send` sent are, with the bytes of their pbufs, the frames that the hardware is done
with, in order, and those that stand in the transmit memory. -/
structure Transmits (packet : PBufPtr → PBuf) (steps : List (TxPath τ × PathAction τ))
    (path : TxPath τ) : Prop where
  accepted : acceptedFrames steps = (settledFrames steps).map Prod.fst ++ path.requests.req.queue
  sent : ((settledFrames steps).filter sends).map (fun call => (packet call.1).bytes) =
    (framesTaken (ringRun packet steps)).map Prod.fst ++ path.ring.inFlight
  finished : ∀ entry ∈ framesTaken (ringRun packet steps), entry.2 &&& smapBdTxReady = 0

/-- What every step keeps: both parts are in runs of their own, and the sends of the one
are the calls of the other. -/
structure Kept [DecidableEq τ] [Fintype τ] (packet : PBufPtr → PBuf)
    (steps : List (TxPath τ × PathAction τ)) (path : TxPath τ) : Prop where
  requests : Senders.SendRun (requestRun steps) path.requests
  ring : TxRun (ringRun packet steps) path.ring
  sent : Runs.observed framesSent (ringRun packet steps) =
    ((settledFrames steps).filter sends).map fun call => (packet call.1).bytes

/-- What a run of the senders settles is what its verdicts settle, frame by frame. -/
theorem settlements_observed (steps : List (Senders.State τ × Senders.Action τ)) :
    settlements (Runs.observed events steps) = (Runs.observed verdicts steps).map Prod.fst := by
  induction steps with
  | nil => rfl
  | cons entry rest inductionHypothesis =>
    rw [Runs.observed, Runs.observed] at *
    rw [List.flatMap_cons, List.flatMap_cons, WorkQueue.settlements_append, List.map_append,
      inductionHypothesis, settlements_events]

/-- The frames asked of `SMap_Send` in a step are those of the step's calls. -/
theorem asked_calls (state : Senders.State τ) (action : Senders.Action τ) (gnp : Nat → Nat → Bool) :
    (asked state action gnp).map Prod.fst = callsOf state action := by
  rw [asked, List.map_map]
  exact List.zipIdx_map_fst 0 _

/-- A step of the threads goes on with both runs. -/
theorem requests_kept [DecidableEq τ] [Fintype τ] {packet : PBufPtr → PBuf}
    {steps : List (TxPath τ × PathAction τ)} {path : TxPath τ} {action : Senders.Action τ}
    {gnp : Nat → Nat → Bool} {requests : Senders.State τ} {done : List (State × Action) × State}
    (kept : Kept packet steps path) (taken : path.requests.step action = some requests)
    (performed : perform packet path.ring (asked path.requests action gnp) = some done) :
    Kept packet (steps ++ [(path, .requests action gnp)]) ⟨requests, done.2⟩ := by
  have forRequests : requestRun (steps ++ [(path, .requests action gnp)]) =
      requestRun steps ++ [(path.requests, action)] := Runs.observed_snoc _ _ _ _
  have forRing : ringRun packet (steps ++ [(path, .requests action gnp)]) =
      ringRun packet steps ++ done.1 := by
    rw [ringRun, Runs.observed_snoc, ringSteps, performed]
    rfl
  have sent := perform_sent packet performed
  rw [asked_calls, sends_verdicts] at sent
  constructor
  · rw [forRequests]
    exact Runs.Run.snoc kept.requests taken
  · rw [forRing]
    exact perform_run packet kept.ring performed
  · rw [forRing, settledFrames, forRequests, Runs.observed_snoc, List.filter_append,
      List.map_append, ← sent]
    have both : Runs.observed framesSent (ringRun packet steps ++ done.1) =
        Runs.observed framesSent (ringRun packet steps) ++ Runs.observed framesSent done.1 :=
      List.flatMap_append
    rw [both, kept.sent, settledFrames]

/-- A step of the ring goes on with its run, and sends nothing. -/
theorem ring_kept [DecidableEq τ] [Fintype τ] {packet : PBufPtr → PBuf}
    {steps : List (TxPath τ × PathAction τ)} {path : TxPath τ} {action : Action} {ring : State}
    (kept : Kept packet steps path) (unsent : framesSent path.ring action = [])
    (taken : path.ring.step action = some ring) :
    Kept packet (steps ++ [(path, .ring action)]) { path with ring := ring } := by
  have forRequests : requestRun (steps ++ [(path, .ring action)]) = requestRun steps := by
    rw [requestRun, Runs.observed_snoc, requestSteps, List.append_nil, requestRun]
  have forRing : ringRun packet (steps ++ [(path, .ring action)]) =
      ringRun packet steps ++ [(path.ring, action)] := Runs.observed_snoc _ _ _ _
  constructor
  · rw [forRequests]
    exact kept.requests
  · rw [forRing]
    exact Runs.Run.snoc kept.ring taken
  · rw [forRing, Runs.observed_snoc, unsent, List.append_nil, settledFrames, forRequests]
    exact kept.sent

/-- A step of the path keeps the two halves in step: the calls that the threads make are
the sends that the ring sees. -/
theorem step_kept [DecidableEq τ] [Fintype τ] {packet : PBufPtr → PBuf}
    {steps : List (TxPath τ × PathAction τ)} {path next : TxPath τ} {action : PathAction τ}
    (kept : Kept packet steps path) (taken : path.step packet action = some next) :
    Kept packet (steps ++ [(path, action)]) next := by
  cases action with
  | requests action gnp =>
    rw [TxPath.step] at taken
    split at taken
    · obtain ⟨requests, moved, later⟩ := Option.bind_eq_some_iff.mp taken
      obtain ⟨done, performed, rfl⟩ := Option.map_eq_some_iff.mp later
      exact requests_kept kept moved performed
    · cases taken
  | ring action =>
    cases action with
    | send pPacket gnp => cases taken
    | handleTXInt | txIntTurn | complete | link =>
      simp only [TxPath.step, Option.map_eq_some_iff] at taken
      obtain ⟨ring, moved, rfl⟩ := taken
      exact ring_kept kept rfl moved

/-- However the threads, `SMapInterrupt`, `Timer` and the hardware interleave, as long as
every frame that `SMap_Send` accepts has room the driver transmits the frames that `Send`
accepted, each at most once, in order and with its bytes.

Proof: the run of the path is a run of the senders and a run of the ring, kept in step
call by call. The first gives that what was accepted is what was sent and what waits, the
second that what was sent is transmitted in order. -/
theorem accepted_frames_transmitted [DecidableEq τ] [Fintype τ] {packet : PBufPtr → PBuf}
    {steps : List (TxPath τ × PathAction τ)} {path : TxPath τ}
    (run : Runs.Run (TxPath.step packet) Begun steps path)
    (roomy : Runs.Meets Roomy (ringRun packet steps)) : Transmits packet steps path := by
  have kept : Kept packet steps path := by
    refine Runs.run_invariant (Kept packet) ?_ ?_ run
    · intro path begun
      exact ⟨Runs.Run.start begun.requests, Runs.Run.start begun.ring, rfl⟩
    · exact fun _ _ _ _ kept taken => step_kept kept taken
  have ordered := Senders.run_ordered kept.requests
  have served := run_framesServed kept.ring roomy
  constructor
  · rw [acceptedFrames, ordered.walk.conserved, settlements_observed]
    rfl
  · rw [← kept.sent, served.order]
  · exact served.finished

/-- Two threads with frames of 1500 bytes: the third finds no room and waits in the queue
until the first is taken back, and then runs over the end of the transmit memory. -/
def threeFrames : List (PathAction (Fin 2)) :=
  let ready : Nat → Nat → Bool := fun _ _ => false
  [.requests (.send 0 1) ready, .requests (.run 0 .ok none) ready, .requests (.send 1 2) ready,
    .requests (.run 1 .ok none) ready, .requests (.send 0 3) ready, .requests (.run 0 .tx none) ready,
    .ring (.complete 0 0), .ring .handleTXInt, .ring .txIntTurn, .ring .txIntTurn,
    .requests (.smapInterrupt true (fun _ => .ok) none) ready]

/-- All three are accepted, in the order in which they were sent, and the last two are in
flight. -/
theorem accepted_frames_transmitted_wrapped : ∃ steps, ∃ path : TxPath (Fin 2),
    Runs.Run (TxPath.step fun pBuf => plainPacket 1500 pBuf.toUInt8) Begun steps path ∧
      acceptedFrames steps = [1, 2, 3] ∧ path.ring.unreaped = [1500, 1500] ∧
      Transmits (fun pBuf => plainPacket 1500 pBuf.toUInt8) steps path := by
  have begun : Begun (⟨Senders.idleDriver, linkedDriver⟩ : TxPath (Fin 2)) :=
    ⟨Senders.idleDriver_initialised, linkedDriver_initialised⟩
  obtain ⟨steps, path, run, accepted, flight, roomy⟩ := Runs.run_of_performed
    (TxPath.step fun pBuf => plainPacket 1500 pBuf.toUInt8)
    (fun steps (path : TxPath (Fin 2)) => acceptedFrames steps = [1, 2, 3] ∧
      path.ring.unreaped = [1500, 1500] ∧
      ∀ entry ∈ ringRun (fun pBuf => plainPacket 1500 pBuf.toUInt8) steps, Roomy entry.1 entry.2)
    begun threeFrames (by decide +kernel)
  exact ⟨steps, path, run, accepted, flight, accepted_frames_transmitted run roomy⟩

end Ps2Eth.SmapLinux.Sending
