import Ps2Eth.Smap.ThreadMoves

/-!
# Starting and stopping the smap driver

`SMAPStart` and `SMAPStop` of `smap/smap.c` leave requests in the event flag, which
keeps no order, and `SMAPStop` sets `NetDevStopFlag` after its event.
`IntrHandlerThread` looks at STOP before START, drops a STOP for a device that is
not initialised, and gives up a start when it finds the flag set behind `InitPHY`.
-/

namespace Ps2Eth.Smap

/-- The calls that ask for a start or a stop. -/
inductive Request where
  | smapStart
  | smapStop
deriving DecidableEq

/-- The driver with the thread that makes the calls. -/
structure Requested where
  driver : Driver
  /-- `SMAPStop` has set its event and not yet the flag. -/
  stopping : Bool
  /-- The last call, once there is one. -/
  last : Option Request

namespace Requested

variable (state : Requested)

/-- One step, if the action is possible: the calls come one after the other. -/
def step (action : DriverAction) : Option Requested :=
  match action with
  | .smapStart =>
      if state.stopping then none
      else (state.driver.step .smapStart).map fun driver =>
        { driver := driver, stopping := false, last := some .smapStart }
  | .smapStop =>
      if state.stopping then none
      else (state.driver.step .smapStop).map fun driver =>
        { driver := driver, stopping := true, last := some .smapStop }
  | .smapStopFlag =>
      if state.stopping then
        (state.driver.step .smapStopFlag).map fun driver =>
          { state with driver := driver, stopping := false }
      else none
  | action => (state.driver.step action).map fun driver => { state with driver := driver }

end Requested

/-- No call was made yet. -/
structure Unrequested (state : Requested) : Prop where
  waiting : Waiting state.driver
  noStart : state.driver.tx.events.start = false
  noStop : state.driver.tx.events.stop = false
  netDevStopFlag : state.driver.netDevStopFlag = false
  stopping : state.stopping = false
  last : state.last = none

/-- The PHY resets at once and reports a link. -/
def ReportsLink (_ : Requested) (action : DriverAction) : Prop :=
  ∀ outcome, action = .thread outcome → outcome.linkUp = true ∧ outcome.phy ≠ .returns false

/-- With the calls returned and the thread blocked without a request, the device is as
the last call asked for. -/
def LastCallWins (state : Requested) : Prop :=
  state.driver.control = .wait → state.driver.tx.events.start = false →
    state.driver.tx.events.stop = false → state.stopping = false →
    (state.last = some .smapStart → state.driver.smapIsInitialized = true) ∧
      (state.last = some .smapStop →
        state.driver.smapIsInitialized = false ∧ state.driver.netDevStopFlag = false)

/-- The thread takes none of the branches that lose a request. -/
structure KeepsRequest (state : Requested) (action : DriverAction) : Prop where
  /-- A STOP that it takes leaves no flag behind, set or still to be set, unless
  another request follows that looks at the flag. -/
  tests : ∀ outcome efBits, action = .thread outcome → state.driver.control = .stop efBits →
    efBits.stop = true →
    state.stopping = true ∨
      (state.driver.netDevStopFlag = true ∧ state.driver.smapIsInitialized = false) →
    state.driver.tx.events.stop = true ∨ efBits.start = true
  /-- A start is not completed after `SMAPStop`, unless STOP is pending. -/
  completes : ∀ outcome efBits, action = .thread outcome → state.driver.control = .initPhy efBits →
    outcome.phy = .returns true → state.driver.netDevStopFlag = false →
    state.last = some .smapStop → state.driver.tx.events.stop = true
  /-- A start is not given up after `SMAPStart`, unless START is pending, and not
  between the event of `SMAPStop`, already taken, and its flag. -/
  aborts : ∀ outcome efBits, action = .thread outcome → state.driver.control = .initPhy efBits →
    outcome.phy = .returns true → state.driver.netDevStopFlag = true →
    (state.last = some .smapStart → state.driver.tx.events.start = true) ∧
      (state.stopping = true → state.driver.tx.events.stop = true)

/-- The thread is about to test a STOP that it has taken. -/
def Control.stops : Control → Bool
  | .stop efBits => efBits.stop
  | _ => false

/-- The thread is in the middle of a start. -/
def Control.bringsUp : Control → Bool
  | .initPhy _ | .enableMac _ => true
  | _ => false

/-- The thread will come to the flag behind `InitPHY`. -/
def Driver.starting (driver : Driver) : Bool :=
  match driver.control with
  | .stop efBits => efBits.start && (efBits.stop || !driver.smapIsInitialized)
  | .start efBits => efBits.start && !driver.smapIsInitialized
  | .initPhy _ => true
  | _ => false

/-- What the requests come to. -/
structure Settles (state : Requested) : Prop where
  place : state.driver.control.bringsUp = true → state.driver.smapIsInitialized = false
  caller : state.stopping = true → state.last = some .smapStop
  flag : state.driver.netDevStopFlag = true ∨ state.stopping = true →
    state.driver.tx.events.stop = true ∨ state.driver.control.stops = true ∨
      state.driver.starting = true
  /-- Both events are taken at once. -/
  later : (state.last = some .smapStart → state.driver.tx.events.stop = true →
      state.driver.tx.events.start = true) ∧
    (state.last = some .smapStop → state.driver.tx.events.start = true →
      state.driver.tx.events.stop = true)
  start : state.last = some .smapStart →
    state.driver.tx.events.start = true ∨ state.driver.starting = true ∨
      state.driver.control.bringsUp = true ∨
      (state.driver.smapIsInitialized = true ∧ state.driver.tx.events.stop = false ∧
        state.driver.control.stops = false)
  stop : state.last = some .smapStop →
    state.driver.tx.events.stop = true ∨ state.driver.control.stops = true ∨
      state.driver.starting = true ∨
      (state.driver.smapIsInitialized = false ∧ state.driver.control.bringsUp = false)

/-- The invariant says what the last call comes to: with the calls returned and the thread
blocked, no request is left on its way. -/
theorem settles_lastCallWins {state : Requested} (settles : Settles state) : LastCallWins state := by
  intro waits noStart noStop returned
  have off : state.driver.control.stops = false ∧ state.driver.control.bringsUp = false ∧
      state.driver.starting = false := by
    simp [Driver.starting, waits, Control.stops, Control.bringsUp]
  obtain ⟨stops, bringsUp, starting⟩ := off
  constructor
  · intro last
    have start := settles.start last
    simpa [noStart, noStop, stops, bringsUp, starting] using start
  · intro last
    have stop := settles.stop last
    have flag := settles.flag
    constructor
    · simpa [noStop, stops, bringsUp, starting] using stop
    · simpa [noStop, stops, starting, returned] using flag

/-- A driver of which nothing was asked is settled. -/
theorem unrequested_settles {state : Requested} (unrequested : Unrequested state) :
    Settles state := by
  obtain ⟨waiting, noStart, noStop, netDevStopFlag, stopping, last⟩ := unrequested
  constructor
  · simp [waiting.control, Control.bringsUp]
  · simp [stopping]
  · simp [netDevStopFlag, stopping]
  · simp [last]
  · simp [last]
  · simp [last]

/-- What `Settles` looks at in the driver. -/
structure SameStage (driver others : Driver) : Prop where
  startEvent : driver.tx.events.start = others.tx.events.start
  stopEvent : driver.tx.events.stop = others.tx.events.stop
  netDevStopFlag : driver.netDevStopFlag = others.netDevStopFlag
  smapIsInitialized : driver.smapIsInitialized = others.smapIsInitialized
  stops : driver.control.stops = others.control.stops
  bringsUp : driver.control.bringsUp = others.control.bringsUp
  starting : driver.starting = others.starting

/-- A step that touches none of the fields that requests go through keeps them on their
way. -/
theorem same_settles {state : Requested} {next : Driver} (settles : Settles state)
    (same : SameStage next state.driver) : Settles { state with driver := next } := by
  obtain ⟨startEvent, stopEvent, netDevStopFlag, smapIsInitialized, stops, bringsUp, starting⟩ := same
  constructor
  · rw [bringsUp, smapIsInitialized]
    exact settles.place
  · exact settles.caller
  · rw [netDevStopFlag, stopEvent, stops, starting]
    exact settles.flag
  · rw [startEvent, stopEvent]
    exact settles.later
  · rw [startEvent, stopEvent, stops, bringsUp, starting, smapIsInitialized]
    exact settles.start
  · rw [stopEvent, stops, bringsUp, starting, smapIsInitialized]
    exact settles.stop

/-- The places where the thread has no request in hand. -/
def Control.unrequested : Control → Bool
  | .stop _ | .start _ | .initPhy _ | .enableMac _ => false
  | _ => true

/-- With no request in hand the thread is neither at a STOP nor in a start. -/
theorem unrequested_off {driver : Driver} (unrequested : driver.control.unrequested = true) :
    driver.control.stops = false ∧ driver.control.bringsUp = false ∧ driver.starting = false := by
  cases here : driver.control with
  | stop | start | initPhy | enableMac => simp [here, Control.unrequested] at unrequested
  | _ => simp [Driver.starting, here, Control.stops, Control.bringsUp]

/-- Between two places without a request the stage changes only with the events and the
two flags. -/
theorem unrequested_same {driver next : Driver} (here : driver.control.unrequested = true)
    (there : next.control.unrequested = true) (events : next.tx.events = driver.tx.events)
    (flags : next.netDevStopFlag = driver.netDevStopFlag ∧
      next.smapIsInitialized = driver.smapIsInitialized) : SameStage next driver := by
  obtain ⟨stops, bringsUp, starting⟩ := unrequested_off here
  obtain ⟨stops', bringsUp', starting'⟩ := unrequested_off there
  constructor
  · rw [events]
  · rw [events]
  · exact flags.1
  · exact flags.2
  · rw [stops, stops']
  · rw [bringsUp, bringsUp']
  · rw [starting, starting']

/-- A thread that serves interrupts or frames has no request in hand. -/
theorem serving_unrequested {control : Control} (serving : control.serving = true) :
    control.unrequested = true := by
  cases control with
  | stop | start | initPhy | enableMac => cases serving
  | _ => rfl

section Thread

variable {state : Requested}

/-- The thread takes the pending events. -/
theorem wakes_settles (settles : Settles state) (here : state.driver.control = .wait) :
    Settles { state with
      driver := { state.driver with
        tx := { state.driver.tx with events := .clear }
        control := .stop state.driver.tx.events } } := by
  have waits : state.driver.control.unrequested = true := by rw [here]; rfl
  obtain ⟨stops, bringsUp, starting⟩ := unrequested_off waits
  have flag := settles.flag
  have start := settles.start
  have stop := settles.stop
  obtain ⟨stopBefore, startBefore⟩ := settles.later
  constructor
  · simp [Control.bringsUp]
  · exact settles.caller
  · grind [Control.stops]
  · simp [EventFlag.clear]
  · grind [Control.stops, Driver.starting, EventFlag.clear]
  · grind [Control.stops, Control.bringsUp, Driver.starting, EventFlag.clear]

/-- The thread stops the device. -/
theorem stops_settles {intrMask : IntrBits} {efBits : EventFlag} (settles : Settles state)
    (keeps : state.stopping = true → state.driver.tx.events.stop = true ∨ efBits.start = true)
    (here : state.driver.control = .stop efBits) (asked : efBits.stop = true) : Settles { state with
      driver := { state.driver with
        tx := state.driver.tx.setLinkStatus false
        intrMask := intrMask
        netDevStopFlag := false
        smapIsInitialized := false
        control := .start efBits } } := by
  have start := settles.start
  constructor
  · simp [Control.bringsUp]
  · exact settles.caller
  · simp only [State.setLinkStatus, Driver.starting]
    grind
  · exact settles.later
  · simp only [State.setLinkStatus]
    grind [Control.stops, Control.bringsUp, Driver.starting]
  · simp [Control.bringsUp]

/-- The thread has no STOP in hand, or one for a device that is not initialised. -/
theorem passesStop_settles {efBits : EventFlag} (settles : Settles state)
    (keeps : efBits.stop = true → state.stopping = true ∨
      (state.driver.netDevStopFlag = true ∧ state.driver.smapIsInitialized = false) →
      state.driver.tx.events.stop = true ∨ efBits.start = true)
    (here : state.driver.control = .stop efBits)
    (no : efBits.stop = true → state.driver.smapIsInitialized = false) :
    Settles { state with driver := { state.driver with control := .start efBits } } := by
  have flag := settles.flag
  have start := settles.start
  have stop := settles.stop
  obtain ⟨stopBefore, startBefore⟩ := settles.later
  constructor
  · simp [Control.bringsUp]
  · exact settles.caller
  · grind [Control.stops, Driver.starting]
  · exact settles.later
  · grind [Control.stops, Control.bringsUp, Driver.starting]
  · grind [Control.stops, Control.bringsUp, Driver.starting]

/-- The thread starts a device that is not initialised. -/
theorem starts_settles {intrMask : IntrBits} {efBits : EventFlag} (settles : Settles state)
    (idle : state.driver.smapIsInitialized = false) : Settles { state with
      driver := { state.driver with intrMask := intrMask, control := .initPhy efBits } } := by
  constructor
  · exact fun _ => idle
  · exact settles.caller
  · simp [Driver.starting]
  · exact settles.later
  · simp [Driver.starting]
  · simp [Driver.starting]

/-- The thread has no START in hand, or one for an initialised device. -/
theorem passesStart_settles {efBits : EventFlag} (settles : Settles state)
    (here : state.driver.control = .start efBits)
    (no : efBits.start = true → state.driver.smapIsInitialized = true) :
    Settles { state with driver := { state.driver with control := .dispatch efBits } } := by
  have flag := settles.flag
  have start := settles.start
  have stop := settles.stop
  constructor
  · simp [Control.bringsUp]
  · exact settles.caller
  · grind [Control.stops, Driver.starting]
  · exact settles.later
  · grind [Control.stops, Control.bringsUp, Driver.starting]
  · grind [Control.stops, Control.bringsUp, Driver.starting]

/-- The thread gives up the start. -/
theorem aborts_settles {efBits : EventFlag} (settles : Settles state)
    (keeps : (state.last = some .smapStart → state.driver.tx.events.start = true) ∧
      (state.stopping = true → state.driver.tx.events.stop = true))
    (here : state.driver.control = .initPhy efBits) : Settles { state with
      driver := { state.driver with netDevStopFlag := false, control := .wait } } := by
  have idle := settles.place (by rw [here]; rfl)
  constructor
  · simp [Control.bringsUp]
  · exact settles.caller
  · rintro (set | stopping)
    · cases set
    · exact Or.inl (keeps.2 stopping)
  · exact settles.later
  · exact fun last => Or.inl (keeps.1 last)
  · exact fun _ => Or.inr (Or.inr (Or.inr ⟨idle, rfl⟩))

/-- `InitPHY` has found a link, and the flag is not set. -/
theorem phyDone_settles {efBits : EventFlag} (settles : Settles state)
    (keeps : state.last = some .smapStop → state.driver.tx.events.stop = true)
    (here : state.driver.control = .initPhy efBits) (goesOn : state.driver.netDevStopFlag = false) :
    Settles { state with driver := { state.driver with control := .enableMac efBits } } := by
  have idle := settles.place (by rw [here]; rfl)
  constructor
  · exact fun _ => idle
  · exact settles.caller
  · rintro (set | stopping)
    · rw [goesOn] at set
      cases set
    · exact Or.inl (keeps (settles.caller stopping))
  · exact settles.later
  · simp [Control.bringsUp]
  · exact fun last => Or.inl (keeps last)

/-- The device is initialised at the end of a start; whatever was asked meanwhile is still
pending. -/
theorem enables_settles {efBits : EventFlag} (settles : Settles state)
    (here : state.driver.control = .enableMac efBits) : Settles { state with
      driver := { state.driver with smapIsInitialized := true, control := .dispatch efBits } } := by
  have off : state.driver.control.stops = false ∧ state.driver.starting = false := by
    simp [Driver.starting, here, Control.stops]
  have flag := settles.flag
  have stop := settles.stop
  obtain ⟨stopBefore, startBefore⟩ := settles.later
  constructor
  · simp [Control.bringsUp]
  · exact settles.caller
  · grind
  · exact settles.later
  · grind [Control.stops]
  · grind [Control.bringsUp]

/-- A step of the thread that loses no request.

Proof: by the moves of the thread. Those that take up a request have a lemma each, with
the branch that would lose one excluded; the others are apart from all requests. -/
theorem thread_settles {outcome : Outcome} {next : Driver} (settles : Settles state)
    (reports : ReportsLink state (.thread outcome)) (keeps : KeepsRequest state (.thread outcome))
    (moves : ThreadMoves state.driver outcome next) : Settles { state with driver := next } := by
  cases moves with
  | wakes here => exact wakes_settles settles here
  | stops here asked running =>
    refine stops_settles settles (fun stopping => ?_) here asked
    exact keeps.tests outcome _ rfl here asked (Or.inl stopping)
  | passesStop here no =>
    exact passesStop_settles settles (keeps.tests outcome _ rfl here) here no
  | starts here asked idle => exact starts_settles settles idle
  | passesStart here no => exact passesStart_settles settles here no
  | phyWrites here phy =>
    apply same_settles settles
    constructor
    · rfl
    · rfl
    · rfl
    · rfl
    · rw [here]
    · rw [here]
    · simp [Driver.starting, here]
  | phyFails here phy => exact absurd phy (reports outcome rfl).2
  | aborts here phy stop =>
    exact aborts_settles settles (keeps.aborts outcome _ rfl here phy stop) here
  | phyDone here phy goesOn =>
    exact phyDone_settles settles (keeps.completes outcome _ rfl here phy goesOn) here goesOn
  | enables here => exact enables_settles settles here
  | serves here running there =>
    apply same_settles settles
    exact unrequested_same (by rw [here]; rfl) (serving_unrequested there) rfl ⟨rfl, rfl⟩
  | works here there moved =>
    apply same_settles settles
    exact unrequested_same (serving_unrequested here) (serving_unrequested there)
      (serves_same moved).1 ⟨rfl, rfl⟩
  | discards here | unmasks here | testsInTx here | linkStays here | linkLost here
    | recoverWrites here | recovered here =>
    apply same_settles settles
    exact unrequested_same (by rw [here]; rfl) rfl rfl ⟨rfl, rfl⟩
  | turnEnds here there =>
    apply same_settles settles
    refine unrequested_same (by rw [here]; rfl) ?_ rfl ⟨rfl, rfl⟩
    rcases there with rfl | rfl
    · rfl
    · rfl

end Thread

section Calls

variable {state : Requested} {next : Driver}

/-- `SMAPStart` puts its request where the thread will take it. -/
theorem smapStart_settles (settles : Settles state) (moves : DriverMoves state.driver .smapStart next)
    (returned : state.stopping = false) :
    Settles { driver := next, stopping := false, last := some .smapStart } := by
  have flag := settles.flag
  cases moves with
  | traffic traffic => cases traffic
  | signals signals events =>
    cases signals
    constructor
    · exact settles.place
    · simp
    · simp only [events]
      grind [EventFlag.set, EventFlag.clear, Driver.starting]
    · simp [events, EventFlag.set]
    · exact fun _ => Or.inl (by simp [events, EventFlag.set])
    · simp

/-- `SMAPStop` sends its event; the flag follows in a step of its own. -/
theorem smapStop_settles (settles : Settles state) (moves : DriverMoves state.driver .smapStop next) :
    Settles { driver := next, stopping := true, last := some .smapStop } := by
  cases moves with
  | traffic traffic => cases traffic
  | signals signals events =>
    cases signals
    constructor
    · exact settles.place
    · simp
    · exact fun _ => Or.inl (by simp [events, EventFlag.set])
    · simp [events, EventFlag.set]
    · simp
    · exact fun _ => Or.inl (by simp [events, EventFlag.set])

/-- The flag that `SMAPStop` sets last completes the request. -/
theorem smapStopFlag_settles (settles : Settles state)
    (moves : DriverMoves state.driver .smapStopFlag next) (stopping : state.stopping = true) :
    Settles { state with driver := next, stopping := false } := by
  cases moves with
  | traffic traffic => cases traffic
  | signals signals => cases signals
  | smapStopFlag =>
    constructor
    · exact settles.place
    · simp
    · exact fun _ => settles.flag (Or.inr stopping)
    · exact settles.later
    · exact settles.start
    · exact settles.stop

/-- The other actions, the thread's among them. -/
theorem others_settles {action : DriverAction} (settles : Settles state)
    (reports : ReportsLink state action) (keeps : KeepsRequest state action)
    (moves : DriverMoves state.driver action next)
    (other : action ≠ .smapStart ∧ action ≠ .smapStop ∧ action ≠ .smapStopFlag) :
    Settles { state with driver := next } := by
  cases moves with
  | traffic traffic events =>
    exact same_settles settles ⟨events.start, events.stop, rfl, rfl, rfl, rfl, rfl⟩
  | raise sources => exact same_settles settles ⟨rfl, rfl, rfl, rfl, rfl, rfl, rfl⟩
  | dev9IntrCb pending events =>
    refine same_settles settles ⟨?_, ?_, rfl, rfl, rfl, rfl, rfl⟩
    · simp [events, EventFlag.set, EventFlag.clear]
    · simp [events, EventFlag.set, EventFlag.clear]
  | signals signals events =>
    cases action with
    | linkCheckTimer =>
      cases signals
      refine same_settles settles ⟨?_, ?_, rfl, rfl, rfl, rfl, rfl⟩
      · simp [events, EventFlag.set, EventFlag.clear]
      · simp [events, EventFlag.set, EventFlag.clear]
    | smapStart => exact absurd rfl other.1
    | smapStop => exact absurd rfl other.2.1
    | _ => cases signals
  | smapStopFlag => exact absurd rfl other.2.2
  | thread moves => exact thread_settles settles reports keeps moves

/-- Every step that loses no request. -/
theorem step_settles {action : DriverAction} {after : Requested} (settles : Settles state)
    (reports : ReportsLink state action) (keeps : KeepsRequest state action)
    (taken : state.step action = some after) : Settles after := by
  cases action with
  | smapStart =>
    simp only [Requested.step] at taken
    split at taken
    · cases taken
    next returned =>
      obtain ⟨driver, moved, rfl⟩ := Option.map_eq_some_iff.mp taken
      exact smapStart_settles settles (driver_moves moved) (by simpa using returned)
  | smapStop =>
    simp only [Requested.step] at taken
    split at taken
    · cases taken
    · obtain ⟨driver, moved, rfl⟩ := Option.map_eq_some_iff.mp taken
      exact smapStop_settles settles (driver_moves moved)
  | smapStopFlag =>
    simp only [Requested.step] at taken
    split at taken
    next stopping =>
      obtain ⟨driver, moved, rfl⟩ := Option.map_eq_some_iff.mp taken
      exact smapStopFlag_settles settles (driver_moves moved) stopping
    · cases taken
  | output | tcpip | complete | raise | dev9IntrCb | linkCheckTimer | thread =>
    simp only [Requested.step] at taken
    obtain ⟨driver, moved, rfl⟩ := Option.map_eq_some_iff.mp taken
    refine others_settles settles reports keeps (driver_moves moved) ?_
    exact ⟨by rintro ⟨⟩, by rintro ⟨⟩, by rintro ⟨⟩⟩

end Calls

/-- With a PHY that reports a link, the last call wins in every run that takes none of
the branches that lose a request.

Proof: by induction on the run, with the requests on their way as the invariant: each is
an event that is pending, a branch of the thread that is under way, or done. The thread
tests STOP before START, so the branches that lose a request are those where both are
taken at once. -/
theorem last_call_wins {steps : List (Requested × DriverAction)} {state : Requested}
    (run : Runs.Run Requested.step Unrequested steps state) (reports : Runs.Meets ReportsLink steps)
    (keeps : Runs.Meets KeepsRequest steps) : LastCallWins state := by
  have settles : Settles state := by
    refine Runs.invariant (fun _ state => Settles state) ?_ ?_ run
      ((Runs.meets_and _ _ _).mpr ⟨reports, keeps⟩)
    · intro start unrequested
      exact unrequested_settles unrequested
    · rintro earlier before action after settles ⟨reports, keeps⟩ taken
      exact step_settles settles reports keeps taken
  exact settles_lastCallWins settles

/-- The idle driver is one that a run can start from. -/
theorem idleDriver_unrequested : Unrequested ⟨idleDriver, false, none⟩ where
  waiting := idleDriver_waiting
  noStart := rfl
  noStop := rfl
  netDevStopFlag := rfl
  stopping := rfl
  last := rfl

/-- What the thread is answered tells of a link. -/
def reportsLink : DriverAction → Bool
  | .thread ⟨_, _, linkUp, .returns ok⟩ => linkUp && ok
  | .thread ⟨_, _, linkUp, .writes _⟩ => linkUp
  | _ => true

/-- The test on an answer implies its condition. -/
theorem reportsLink_of {state : Requested} {action : DriverAction}
    (checked : reportsLink action = true) : ReportsLink state action := by
  rintro ⟨dmaOk, received, linkUp, phy⟩ rfl
  cases phy with
  | writes => exact ⟨checked, by rintro ⟨⟩⟩
  | returns ok =>
    obtain ⟨linkUp, ok⟩ := Bool.and_eq_true_iff.mp checked
    exact ⟨linkUp, by rintro ⟨⟩; cases ok⟩

/-- The thread finds `InitPHY` done without a call of `SMAPStop`, and takes a STOP for
an initialised device with the flag set. -/
def keepsRequest (state : Requested) : Bool :=
  match state.driver.control with
  | .stop efBits => !efBits.stop || (!state.stopping && state.driver.smapIsInitialized)
  | .initPhy _ => !state.driver.netDevStopFlag && state.last != some .smapStop
  | _ => true

/-- The test on a state implies that its next step loses no request. -/
theorem keepsRequest_of {state : Requested} {action : DriverAction}
    (checked : keepsRequest state = true) : KeepsRequest state action := by
  constructor
  · intro outcome efBits _ here asked left
    have told : state.stopping = false ∧ state.driver.smapIsInitialized = true := by
      simpa [keepsRequest, here, asked] using checked
    rcases left with stopping | ⟨_, idle⟩
    · rw [told.1] at stopping
      cases stopping
    · rw [told.2] at idle
      cases idle
  · intro outcome efBits _ here _ _ last
    simp [keepsRequest, here, last] at checked
  · intro outcome efBits _ here _ set
    simp [keepsRequest, here, set] at checked

/-- The device is started, and stopped when the thread is done with that. -/
theorem last_call_wins_apart : ∃ steps state, Runs.Run Requested.step Unrequested steps state ∧
    state.driver.control = .wait ∧ state.last = some .smapStop ∧ LastCallWins state := by
  obtain ⟨steps, state, run, ⟨waits, last⟩, checked⟩ := Runs.run_of_performed Requested.step
    (fun steps state => (state.driver.control = .wait ∧ state.last = some .smapStop) ∧
      ∀ entry ∈ steps, reportsLink entry.2 = true ∧ keepsRequest entry.1 = true)
    idleDriver_unrequested
    ([.smapStart] ++ threadTurns 12 ++ [.smapStop, .smapStopFlag] ++ threadTurns 4) (by decide)
  exact ⟨steps, state, run, waits, last, last_call_wins run
    (fun entry member => reportsLink_of (checked entry member).1)
    (fun entry member => keepsRequest_of (checked entry member).2)⟩

/-- Of a running device, `SMAPStart` and then `SMAPStop` are called before the thread
runs: it stops the device and then starts it again. -/
theorem last_call_loses : ∃ steps state, Runs.Run Requested.step Unrequested steps state ∧
    Runs.Meets ReportsLink steps ∧ ¬ LastCallWins state := by
  obtain ⟨steps, state, run, reports, ⟨waits, quiet⟩, ⟨returned, last⟩, running⟩ :=
    Runs.run_of_performed Requested.step
    (fun steps state => (∀ entry ∈ steps, reportsLink entry.2 = true) ∧
      (state.driver.control = .wait ∧ state.driver.tx.events = .clear) ∧
      (state.stopping = false ∧ state.last = some .smapStop) ∧
      state.driver.smapIsInitialized = true)
    idleDriver_unrequested
    ([.smapStart] ++ threadTurns 12 ++ [.smapStart, .smapStop, .smapStopFlag] ++ threadTurns 12)
    (by decide)
  refine ⟨steps, state, run, fun entry member => reportsLink_of (reports entry member), ?_⟩
  intro wins
  have stopped := ((wins waits (by rw [quiet]; rfl) (by rw [quiet]; rfl) returned).2 last).1
  rw [running] at stopped
  cases stopped

end Ps2Eth.Smap
