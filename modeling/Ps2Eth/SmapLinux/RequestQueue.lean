import Ps2Eth.Lib.WorkQueue
import Ps2Eth.SmapLinux.TxRing

/-!
# The request queue of the smap-linux driver

`AddToQueue` and `SendRequests` of `smap-linux/main.c` over the static data they
share: a circular buffer of pbuf pointers with a first index and a count. A
frame in the queue holds one reference more than its owner gave it.

`SMap_Send` appears by its results alone, and every call of it is reported. Seen
from outside the buffer is a work queue: accepted frames arrive, `SMap_Send`
tries the first of them, and any result but `SMap_TX` settles it.
-/

namespace Ps2Eth.SmapLinux

open WorkQueue (Event Walk)

/-- `MAX_REQ_CNT`, the requests that the queue has room for. -/
def maxReqCnt : Nat := 8

/-- The address of a pbuf. -/
abbrev PBufPtr := Nat

/-- The request queue and the timeout counter, with the reference counts of all
pbufs. -/
structure Requests where
  iReqNR : Int
  iReqCNT : Int
  apReqQueue : Nat → PBufPtr
  iTimeoutCNT : Int
  ref : PBufPtr → Int

/-- A call of `SMap_Send` with its result. -/
abbrev Call := PBufPtr × SMapStatus

namespace Requests

/-- The slot of an index, which is never negative. -/
def slot (index : Int) : Nat := (index % maxReqCnt).toNat

/-- `StoreLast` puts a pbuf behind the last request, counts it, and takes a reference on
it. -/
def storeLast (req : Requests) (pBuf : PBufPtr) : Requests :=
  { req with
    apReqQueue := Function.update req.apReqQueue (slot (req.iReqNR + req.iReqCNT)) pBuf
    iReqCNT := req.iReqCNT + 1
    ref := Function.update req.ref pBuf (req.ref pBuf + 1) }

/-- The owner of a pbuf takes references, or gives them back. -/
def addReferences (req : Requests) (pBuf : PBufPtr) (references : Int) : Requests :=
  { req with ref := Function.update req.ref pBuf (req.ref pBuf + references) }

/-- "Clear the timout-timer." It is done whenever `SMap_Send` was tried, and whenever a
request is stored after that. -/
def clearTimeout (req : Requests) : Requests := { req with iTimeoutCNT := 0 }

/-- `AddToQueue`, where `result` is what `SMap_Send` returns if it is called. -/
def addToQueue (req : Requests) (pBuf : PBufPtr) (result : SMapStatus) :
    SMapStatus × Requests × List Call :=
  if req.iReqCNT = 0 then
    if result = .tx then (.ok, (req.storeLast pBuf).clearTimeout, [(pBuf, result)])
    else (result, req, [(pBuf, result)])
  else if req.iReqCNT < maxReqCnt then (.ok, req.storeLast pBuf, [])
  else (.tx, req, [])

/-- The end of a turn of `SendRequests`: `pbuf_free` and the first index advanced. -/
def dropFirst (req : Requests) (pReq : PBufPtr) : Requests :=
  { req with
    ref := Function.update req.ref pReq (req.ref pReq - 1)
    iReqNR := slot (req.iReqNR + 1)
    iReqCNT := req.iReqCNT - 1 }

/-- The loop of `SendRequests`, where `results` are what its calls of `SMap_Send`
return, one after the other. -/
def sendLoop : Nat → (Nat → SMapStatus) → Requests → Requests × List Call
  | 0, _, req => (req, [])
  | turns + 1, results, req =>
      if 0 < req.iReqCNT then
        let pReq := req.apReqQueue req.iReqNR.toNat
        if results 0 = .tx then (req.clearTimeout, [(pReq, results 0)])
        else
          let rest := sendLoop turns (fun turn => results (turn + 1)) (req.clearTimeout.dropFirst pReq)
          (rest.1, (pReq, results 0) :: rest.2)
      else (req, [])

/-- `SendRequests`: every turn but the last takes a frame out of the queue. -/
def sendRequests (req : Requests) (results : Nat → SMapStatus) : Requests × List Call :=
  sendLoop req.iReqCNT.toNat results req

/-- Count and index are in range. -/
structure InRange (req : Requests) : Prop where
  notNegative : 0 ≤ req.iReqCNT
  count : req.iReqCNT ≤ maxReqCnt
  firstNotNegative : 0 ≤ req.iReqNR
  first : req.iReqNR < maxReqCnt

/-- The frames in the queue, first one first. -/
def queue (req : Requests) : List PBufPtr :=
  Ring.window req.apReqQueue maxReqCnt req.iReqNR.toNat req.iReqCNT.toNat

/-- A call of `SMap_Send` for a frame of the queue, as an event of the queue. -/
def tried (call : Call) : Event PBufPtr := .tried call.1 (decide (call.2 ≠ .tx))

/-- Clearing the timeout leaves the queue in range. -/
theorem InRange.clearTimeout {req : Requests} (inRange : InRange req) : InRange req.clearTimeout :=
  ⟨inRange.notNegative, inRange.count, inRange.firstNotNegative, inRange.first⟩

/-- The slot behind the last request, as the driver computes it in `int`, is counted round
the array. -/
theorem InRange.slot_last {req : Requests} (inRange : InRange req) :
    slot (req.iReqNR + req.iReqCNT) = (req.iReqNR.toNat + req.iReqCNT.toNat) % maxReqCnt := by
  obtain ⟨notNegative, count, firstNotNegative, first⟩ := inRange
  simp only [slot, maxReqCnt] at *
  omega

/-- So is the slot behind the first request. -/
theorem InRange.slot_next {req : Requests} (inRange : InRange req) :
    slot (req.iReqNR + 1) = (req.iReqNR.toNat + 1) % maxReqCnt := by
  obtain ⟨notNegative, count, firstNotNegative, first⟩ := inRange
  simp only [slot, maxReqCnt] at *
  omega

section StoreLast

variable {req : Requests}

/-- Storing a request where there is room keeps the queue in range. -/
theorem storeLast_inRange (inRange : InRange req) (room : req.iReqCNT < maxReqCnt)
    (pBuf : PBufPtr) : InRange (req.storeLast pBuf) := by
  obtain ⟨notNegative, count, firstNotNegative, first⟩ := inRange
  constructor
  · change 0 ≤ req.iReqCNT + 1
    omega
  · change req.iReqCNT + 1 ≤ maxReqCnt
    omega
  · exact firstNotNegative
  · exact first

/-- `StoreLast` appends the frame to those waiting, where there is room for it. -/
theorem storeLast_queue (inRange : InRange req) (room : req.iReqCNT < maxReqCnt) (pBuf : PBufPtr) :
    (req.storeLast pBuf).queue = req.queue ++ [pBuf] := by
  have notNegative := inRange.notNegative
  have counted : (req.iReqCNT + 1).toNat = req.iReqCNT.toNat + 1 := by omega
  simp only [queue, storeLast, inRange.slot_last, counted]
  exact Ring.window_push _ _ (by omega)

end StoreLast

section DropFirst

variable {req : Requests}

/-- So does dropping the first of some requests. -/
theorem dropFirst_inRange (inRange : InRange req) (some : 0 < req.iReqCNT) (pReq : PBufPtr) :
    InRange (req.dropFirst pReq) := by
  obtain ⟨notNegative, count, firstNotNegative, first⟩ := inRange
  constructor
  · change 0 ≤ req.iReqCNT - 1
    omega
  · change req.iReqCNT - 1 ≤ maxReqCnt
    omega
  · exact Int.natCast_nonneg _
  · simp only [dropFirst, slot, maxReqCnt]
    omega

/-- The first index names the first frame, and dropping it leaves the others. -/
theorem queue_cons (inRange : InRange req) (some : 0 < req.iReqCNT) (pReq : PBufPtr) :
    req.queue = req.apReqQueue req.iReqNR.toNat :: (req.dropFirst pReq).queue := by
  have first := inRange.first
  have firstNotNegative := inRange.firstNotNegative
  have counted : req.iReqCNT.toNat = (req.iReqCNT - 1).toNat + 1 := by omega
  have inside : req.iReqNR.toNat % maxReqCnt = req.iReqNR.toNat := by
    simp only [maxReqCnt] at *
    omega
  simp only [queue, dropFirst, inRange.slot_next, Int.toNat_natCast]
  rw [counted, Ring.window_pop, inside, Ring.window_congr (Nat.mod_mod _ _)]

end DropFirst

/-- What `SendRequests` does to the queue, seen from outside. -/
structure Sends (req after : Requests) (calls : List Call) : Prop where
  inRange : InRange after
  fewer : after.iReqCNT ≤ req.iReqCNT
  timeout : after.iTimeoutCNT = if 0 < req.iReqCNT then 0 else req.iTimeoutCNT
  /-- Each call tries the first frame. -/
  walk : ∀ events, Walk events req.queue → Walk (events ++ calls.map tried) after.queue
  /-- A frame leaves with its reference. -/
  ref : ∀ pBuf, after.ref pBuf - after.queue.count pBuf = req.ref pBuf - req.queue.count pBuf
  /-- The loop ends with an empty queue or a result `SMap_TX`. -/
  ends : after.iReqCNT = 0 ∨ ∃ pBuf, calls.getLast? = some (pBuf, .tx)

/-- Nothing is sent from an empty queue. -/
theorem sends_nothing {req : Requests} (inRange : InRange req) (empty : req.iReqCNT = 0) :
    Sends req req [] where
  inRange := inRange
  fewer := Int.le_refl _
  timeout := by simp [empty]
  walk := fun events walk => by simpa using walk
  ref := fun _ => rfl
  ends := Or.inl empty

/-- After `SMap_TX` the first frame stays where it is. -/
theorem sends_kept {req : Requests} (inRange : InRange req) (some : 0 < req.iReqCNT) :
    Sends req req.clearTimeout [(req.apReqQueue req.iReqNR.toNat, .tx)] where
  inRange := inRange.clearTimeout
  fewer := Int.le_refl _
  timeout := by simp [some, clearTimeout]
  walk := fun events walk => by
    have cons := queue_cons inRange some (req.apReqQueue req.iReqNR.toNat)
    have same : req.clearTimeout.queue = req.queue := rfl
    rw [cons] at walk
    rw [same, cons]
    exact Walk.kept walk
  ref := fun _ => rfl
  ends := Or.inr ⟨_, rfl⟩

/-- After any other result the first frame leaves, and the loop goes on.

Proof: the first frame is settled by its result, and what the rest of the loop does is
known; the lemma puts one call before the others. -/
theorem Sends.dropped {req after : Requests} {calls : List Call} {result : SMapStatus}
    (inRange : InRange req) (some : 0 < req.iReqCNT) (settled : result ≠ .tx)
    (rest : Sends (req.clearTimeout.dropFirst (req.apReqQueue req.iReqNR.toNat)) after calls) :
    Sends req after ((req.apReqQueue req.iReqNR.toNat, result) :: calls) := by
  have cons : req.queue = req.apReqQueue req.iReqNR.toNat ::
      (req.clearTimeout.dropFirst (req.apReqQueue req.iReqNR.toNat)).queue :=
    queue_cons inRange.clearTimeout some (req.apReqQueue req.iReqNR.toNat)
  constructor
  · exact rest.inRange
  · have fewer := rest.fewer
    change after.iReqCNT ≤ req.iReqCNT - 1 at fewer
    omega
  · have timeout := rest.timeout
    change after.iTimeoutCNT = if 0 < req.iReqCNT - 1 then 0 else 0 at timeout
    rw [if_pos some, timeout, ite_self]
  · intro events walk
    rw [cons] at walk
    have event : tried (req.apReqQueue req.iReqNR.toNat, result) =
        .tried (req.apReqQueue req.iReqNR.toNat) true := by
      simp [tried, settled]
    have onward := rest.walk _ (Walk.settled walk)
    rw [List.map_cons, event]
    simpa using onward
  · intro pBuf
    rw [rest.ref pBuf, cons, List.count_cons]
    by_cases first : req.apReqQueue req.iReqNR.toNat = pBuf
    · subst first
      simp only [dropFirst, clearTimeout, Function.update_self, BEq.rfl, if_true]
      omega
    · simp only [dropFirst, clearTimeout, Function.update_of_ne (Ne.symm first), beq_iff_eq, first,
        if_false]
      omega
  · rcases rest.ends with empty | ⟨pBuf, last⟩
    · exact Or.inl empty
    · exact Or.inr ⟨pBuf, by rw [List.getLast?_cons, last]; rfl⟩

/-- The loop with a turn for every frame. -/
theorem sendLoop_sends {req : Requests} (inRange : InRange req) (turns : Nat)
    (results : Nat → SMapStatus) (enough : turns = req.iReqCNT.toNat) :
    Sends req (sendLoop turns results req).1 (sendLoop turns results req).2 := by
  have notNegative := inRange.notNegative
  induction turns generalizing req results with
  | zero => exact sends_nothing inRange (by omega)
  | succ turns inductionHypothesis =>
    have some : 0 < req.iReqCNT := by omega
    by_cases exhausted : results 0 = .tx
    · simp only [sendLoop, if_pos some, exhausted, if_true]
      exact sends_kept inRange some
    · simp only [sendLoop, if_pos some, exhausted, if_false]
      have later := dropFirst_inRange inRange.clearTimeout some (req.apReqQueue req.iReqNR.toNat)
      refine Sends.dropped inRange some exhausted (inductionHypothesis later _ ?_ later.notNegative)
      change turns = (req.iReqCNT - 1).toNat
      omega

/-- `SendRequests` sends from the front of the queue until it is empty or the
transmit resources are exhausted. -/
theorem sendRequests_sends {req : Requests} (inRange : InRange req) (results : Nat → SMapStatus) :
    Sends req (req.sendRequests results).1 (req.sendRequests results).2 :=
  sendLoop_sends inRange _ results rfl

/-- What an `AddToQueue` that takes the frame does to the queue. -/
structure Adds (req after : Requests) (pBuf : PBufPtr) (calls : List Call) : Prop where
  inRange : InRange after
  timeout : after.iTimeoutCNT = req.iTimeoutCNT ∨ after.iTimeoutCNT = 0
  more : req.iReqCNT ≤ after.iReqCNT
  /-- The frame arrives behind the others before it is tried. -/
  walk : ∀ events, Walk events req.queue →
    Walk (events ++ .arrived pBuf :: calls.map tried) after.queue
  /-- A frame put into the queue brings a reference. -/
  ref : ∀ pBuf, after.ref pBuf - after.queue.count pBuf = req.ref pBuf - req.queue.count pBuf

/-- A count of zero means that nothing waits. -/
theorem queue_empty {req : Requests} (empty : req.iReqCNT = 0) : req.queue = [] := by
  simp [queue, empty]

section AddToQueue

variable {req : Requests}

/-- A frame stored last has its reference. -/
theorem storeLast_ref (inRange : InRange req) (room : req.iReqCNT < maxReqCnt)
    (added pBuf : PBufPtr) :
    (req.storeLast added).ref pBuf - (req.storeLast added).queue.count pBuf =
      req.ref pBuf - req.queue.count pBuf := by
  rw [storeLast_queue inRange room, List.count_append, List.count_singleton]
  by_cases here : added = pBuf
  · subst here
    simp only [storeLast, Function.update_self, BEq.rfl, if_true]
    omega
  · simp only [storeLast, Function.update_of_ne (Ne.symm here), beq_iff_eq, here, if_false]
    omega

/-- A frame that finds others waiting goes behind them. -/
theorem adds_behind (inRange : InRange req) (room : req.iReqCNT < maxReqCnt) (pBuf : PBufPtr) :
    Adds req (req.storeLast pBuf) pBuf [] where
  inRange := storeLast_inRange inRange room pBuf
  timeout := Or.inl rfl
  more := by
    change req.iReqCNT ≤ req.iReqCNT + 1
    omega
  walk := fun events walk => by
    rw [storeLast_queue inRange room]
    exact Walk.arrived walk pBuf
  ref := storeLast_ref inRange room pBuf

/-- A frame tried at once without success waits alone. -/
theorem adds_first (inRange : InRange req) (empty : req.iReqCNT = 0) (pBuf : PBufPtr) :
    Adds req (req.storeLast pBuf).clearTimeout pBuf [(pBuf, .tx)] := by
  have room : req.iReqCNT < maxReqCnt := by simp [empty, maxReqCnt]
  have behind := adds_behind inRange room pBuf
  have alone : (req.storeLast pBuf).clearTimeout.queue = [pBuf] := by
    change (req.storeLast pBuf).queue = [pBuf]
    rw [storeLast_queue inRange room, queue_empty empty]
    rfl
  refine ⟨behind.inRange.clearTimeout, Or.inr rfl, behind.more, ?_, behind.ref⟩
  intro events walk
  rw [queue_empty empty] at walk
  rw [alone]
  have arrived : Walk (events ++ [.arrived pBuf]) [pBuf] := Walk.arrived walk pBuf
  simpa [tried] using Walk.kept arrived

/-- A frame sent at once never waits. -/
theorem adds_sent (inRange : InRange req) (empty : req.iReqCNT = 0) (pBuf : PBufPtr) :
    Adds req req pBuf [(pBuf, .ok)] := by
  refine ⟨inRange, Or.inl rfl, Int.le_refl _, ?_, fun _ => rfl⟩
  intro events walk
  rw [queue_empty empty] at walk ⊢
  have arrived : Walk (events ++ [.arrived pBuf]) [pBuf] := Walk.arrived walk pBuf
  simpa [tried] using Walk.settled arrived

/-- An `AddToQueue` that does not take the frame leaves everything as it was. -/
theorem addToQueue_refused {pBuf : PBufPtr} {result : SMapStatus}
    (refused : (req.addToQueue pBuf result).1 ≠ .ok) : (req.addToQueue pBuf result).2.1 = req := by
  by_cases empty : req.iReqCNT = 0
  · cases result <;> simp [addToQueue, empty] at refused ⊢
  · by_cases room : req.iReqCNT < maxReqCnt
    · simp [addToQueue, empty, room] at refused
    · simp [addToQueue, empty, room]

/-- An `AddToQueue` that takes the frame adds it to the queue or sends it. -/
theorem addToQueue_adds (inRange : InRange req) {pBuf : PBufPtr} {result : SMapStatus}
    (taken : (req.addToQueue pBuf result).1 = .ok) :
    Adds req (req.addToQueue pBuf result).2.1 pBuf (req.addToQueue pBuf result).2.2 := by
  by_cases empty : req.iReqCNT = 0
  · cases result with
    | tx =>
      simp only [addToQueue, empty, if_true]
      exact adds_first inRange empty pBuf
    | ok =>
      simp only [addToQueue, empty, reduceCtorEq, if_true, if_false]
      exact adds_sent inRange empty pBuf
    | err | con => simp [addToQueue, empty] at taken
  · by_cases room : req.iReqCNT < maxReqCnt
    · simp only [addToQueue, empty, room, if_true, if_false]
      exact adds_behind inRange room pBuf
    · simp [addToQueue, empty, room] at taken

end AddToQueue

end Requests

end Ps2Eth.SmapLinux
