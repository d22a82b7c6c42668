import Ps2Eth.Smap.ThreadMoves

/-!
# The initial start of the smap driver

`SMAPInitStart` of `smap/smap.c` enables the interrupts, brings up the PHY and sets
`SmapIsInitialized`, while `IntrHandlerThread` and `Dev9IntrCb` already run.
`Dev9IntrCb` masks every interrupt and leaves it to the thread to enable them
again, which the thread does only for an initialised device. An event that it takes
too early is lost with the interrupts masked.
-/

namespace Ps2Eth.Smap

/-- The RXEND, RXDNV and EMAC3 interrupts are enabled. -/
def Driver.rxEnabled (driver : Driver) : Bool :=
  driver.intrMask.rxend && driver.intrMask.rxdnv && driver.intrMask.emac3

/-- Where `SMAPInitStart` stands: outside, in its call of `InitPHY`, or in one of the two
steps behind it. -/
inductive InitStart where
  | outside
  | initPhy
  | enableMac
  | linkStateUp
deriving DecidableEq

/-- The driver with the thread that calls `SMAPInitStart`. -/
structure StartUp where
  driver : Driver
  initStart : InitStart

/-- The steps of `SMAPStart` and `SMAPStop`. -/
def DriverAction.request : DriverAction → Bool
  | .smapStart | .smapStop | .smapStopFlag => true
  | _ => false

/-- What happens next: in the thread that calls `SMAPInitStart`, or in the driver. -/
inductive StartUpAction where
  /-- `SMAPInitStart` is called or goes on. -/
  | initStart (phy : PhyStep)
  /-- A step of the driver, without requests. -/
  | driver (action : DriverAction)

namespace StartUp

variable (startUp : StartUp)

/-- One step of `SMAPInitStart`, with what `InitPHY` does next where the call stands in
it. -/
def stepInitStart (phy : PhyStep) : Option StartUp :=
  match startUp.initStart with
  | .outside =>
      if startUp.driver.smapIsInitialized then some startUp
      else some { startUp with
        driver := { startUp.driver with
          intrMask := Driver.enableMask2 startUp.driver.intrMask }
        initStart := .initPhy }
  | .initPhy =>
      match phy with
      | .writes linkStatus =>
          (startUp.driver.lift (.link linkStatus) startUp.driver.control).map fun driver =>
            { startUp with driver := driver }
      | .returns ok =>
          if ok && !startUp.driver.netDevStopFlag then some { startUp with initStart := .enableMac }
          else some { startUp with
            driver := { startUp.driver with netDevStopFlag := false }
            initStart := .outside }
  | .enableMac => some { startUp with
      driver := { startUp.driver with smapIsInitialized := true }
      initStart := .linkStateUp }
  | .linkStateUp => some { startUp with initStart := .outside }

/-- One step, if the action is possible. -/
def step : StartUpAction → Option StartUp
  | .initStart phy => startUp.stepInitStart phy
  | .driver action =>
      if action.request then none
      else (startUp.driver.step action).map fun driver => { startUp with driver := driver }

end StartUp

/-- `smap_init` has started the thread: no event is pending, and every interrupt is
masked. -/
structure ThreadStarted (startUp : StartUp) : Prop where
  waiting : Waiting startUp.driver
  events : startUp.driver.tx.events = .clear
  uninitialized : startUp.driver.smapIsInitialized = false
  intrMask : startUp.driver.intrMask = .none
  initStart : startUp.initStart = .outside

/-- With the device initialised, the thread blocked and no INTR event pending, the
receive interrupts are enabled. -/
def Unmasked (startUp : StartUp) : Prop :=
  startUp.driver.control = .wait → startUp.driver.smapIsInitialized = true →
    startUp.initStart = .outside → startUp.driver.tx.events.intr = false →
    startUp.driver.rxEnabled = true

/-- `IntrHandlerThread` does not drop an INTR event for want of an initialised device
in the middle of `SMAPInitStart`, with the receive interrupts masked and no further
event pending. -/
def KeepsIntr (startUp : StartUp) (action : StartUpAction) : Prop :=
  ∀ outcome efBits, action = .driver (.thread outcome) → startUp.driver.control = .dispatch efBits →
    startUp.driver.smapIsInitialized = false → startUp.initStart ≠ .outside → efBits.intr = true →
    startUp.driver.rxEnabled = true ∨ startUp.driver.tx.events.intr = true

/-- The events that the thread has taken. -/
def Control.taken : Control → Option EventFlag
  | .stop efBits | .start efBits | .initPhy efBits | .enableMac efBits | .dispatch efBits => some efBits
  | _ => none

/-- The thread has an INTR event in hand, or is past the test of the device and will
enable the interrupts. -/
def Control.owes (control : Control) : Bool :=
  control.serving || (control.taken.any EventFlag.intr)

/-- The receive interrupts are enabled, or an INTR event is on its way through the
thread. -/
def Driver.RxArmed (driver : Driver) : Prop :=
  driver.rxEnabled = true ∨ driver.tx.events.intr = true ∨ driver.control.owes = true

/-- No request is pending or served. -/
structure Driver.Unasked (driver : Driver) : Prop where
  noStart : driver.tx.events.start = false
  noStop : driver.tx.events.stop = false
  taken : ∀ efBits, driver.control.taken = some efBits → efBits.start = false ∧ efBits.stop = false
  place : ∀ efBits, driver.control ≠ .initPhy efBits ∧ driver.control ≠ .enableMac efBits

/-- A device that is starting or started is armed. -/
structure Watched (startUp : StartUp) : Prop where
  armed : startUp.initStart ≠ .outside ∨ startUp.driver.smapIsInitialized = true → startUp.driver.RxArmed
  unasked : startUp.driver.Unasked

/-- A thread that was just started is watched: no event is pending that it could drop. -/
theorem threadStarted_watched {startUp : StartUp} (started : ThreadStarted startUp) :
    Watched startUp := by
  have control := started.waiting.control
  constructor
  · rintro (inside | running)
    · exact absurd started.initStart inside
    · rw [started.uninitialized] at running
      cases running
  · constructor
    · rw [started.events]
      rfl
    · rw [started.events]
      rfl
    · intro efBits taken
      rw [control] at taken
      cases taken
    · intro efBits
      rw [control]
      exact ⟨by rintro ⟨⟩, by rintro ⟨⟩⟩

/-- The places that are neither behind a test of the events nor in the start of the
device. -/
def Control.settled : Control → Bool
  | .stop _ | .start _ | .initPhy _ | .enableMac _ | .dispatch _ => false
  | _ => true

/-- A thread that serves interrupts or frames is past the test of its events. -/
theorem serving_settled {control : Control} (serving : control.serving = true) :
    control.settled = true := by
  cases control with
  | wait | stop | start | initPhy | enableMac | dispatch | testInTx | turnEnd | checkLink | recoverPhy
    | ended => cases serving
  | _ => rfl

/-- It also owes the enabling of the interrupts at the end of its turn. -/
theorem serving_owes {control : Control} (serving : control.serving = true) : control.owes = true := by
  simp [Control.owes, serving]

/-- At a settled place it is enough to look at the pending events. -/
theorem settled_unasked {driver next : Driver} (unasked : driver.Unasked)
    (settled : next.control.settled = true) (events : next.tx.events = driver.tx.events) :
    next.Unasked := by
  constructor
  · exact events ▸ unasked.noStart
  · exact events ▸ unasked.noStop
  · intro efBits taken
    cases control : next.control with
    | stop | start | initPhy | enableMac | dispatch => simp [control, Control.settled] at settled
    | _ => simp [control, Control.taken] at taken
  · intro efBits
    constructor
    · intro control
      simp [control, Control.settled] at settled
    · intro control
      simp [control, Control.settled] at settled

/-- Without requests, `IntrHandlerThread` neither stops nor starts the device.

Proof: by the moves of the thread. The branches of STOP and START need their bit among the
events taken, and no such event was ever set. -/
theorem thread_unasked {driver next : Driver} {outcome : Outcome} (unasked : driver.Unasked)
    (moves : ThreadMoves driver outcome next) :
    next.Unasked ∧ next.smapIsInitialized = driver.smapIsInitialized := by
  cases moves with
  | wakes here =>
    constructor
    · constructor
      · rfl
      · rfl
      · rintro efBits ⟨⟩
        exact ⟨unasked.noStart, unasked.noStop⟩
      · exact fun efBits => ⟨by rintro ⟨⟩, by rintro ⟨⟩⟩
    · rfl
  | stops here asked =>
    have none := (unasked.taken _ (by rw [here]; rfl)).2
    rw [asked] at none
    cases none
  | starts here asked =>
    have none := (unasked.taken _ (by rw [here]; rfl)).1
    rw [asked] at none
    cases none
  | passesStop here | passesStart here =>
    constructor
    · constructor
      · exact unasked.noStart
      · exact unasked.noStop
      · rintro efBits ⟨⟩
        exact unasked.taken _ (by rw [here]; rfl)
      · exact fun efBits => ⟨by rintro ⟨⟩, by rintro ⟨⟩⟩
    · rfl
  | phyWrites here | phyFails here | aborts here | phyDone here => exact absurd here (unasked.place _).1
  | enables here => exact absurd here (unasked.place _).2
  | serves here running there => exact ⟨settled_unasked unasked (serving_settled there) rfl, rfl⟩
  | works here there moved =>
    exact ⟨settled_unasked unasked (serving_settled there) (serves_same moved).1, rfl⟩
  | discards | unmasks | testsInTx | linkStays | linkLost | recoverWrites | recovered =>
    exact ⟨settled_unasked unasked rfl rfl, rfl⟩
  | turnEnds here there =>
    rcases there with rfl | rfl
    · exact ⟨settled_unasked unasked rfl rfl, rfl⟩
    · exact ⟨settled_unasked unasked rfl rfl, rfl⟩

/-- A step of the thread keeps the device armed, unless it discards an INTR event.

Proof: by the moves of the thread. Where it takes INTR it owes the interrupts until
`EnableInterrupts` is reached, and where it drops INTR the hypothesis says that they are
enabled or that INTR is pending again. -/
theorem thread_armed {driver next : Driver} {outcome : Outcome} (unasked : driver.Unasked)
    (keeps : ∀ efBits, driver.control = .dispatch efBits → driver.smapIsInitialized = false →
      efBits.intr = true → driver.rxEnabled = true ∨ driver.tx.events.intr = true)
    (armed : driver.RxArmed) (moves : ThreadMoves driver outcome next) : next.RxArmed := by
  cases moves with
  | wakes here =>
    rcases armed with enabled | pending | owed
    · exact Or.inl enabled
    · refine Or.inr (Or.inr ?_)
      simpa [Control.owes, Control.serving, Control.taken] using pending
    · rw [here] at owed
      cases owed
  | stops here asked =>
    have none := (unasked.taken _ (by rw [here]; rfl)).2
    rw [asked] at none
    cases none
  | starts here asked =>
    have none := (unasked.taken _ (by rw [here]; rfl)).1
    rw [asked] at none
    cases none
  | passesStop here | passesStart here =>
    refine armed.imp_right (Or.imp_right fun owed => ?_)
    rw [here] at owed
    exact owed
  | phyWrites here | phyFails here | aborts here | phyDone here => exact absurd here (unasked.place _).1
  | enables here => exact absurd here (unasked.place _).2
  | serves here running there => exact Or.inr (Or.inr (serving_owes there))
  | @discards efBits here idle =>
    rcases armed with enabled | pending | owed
    · exact Or.inl enabled
    · exact Or.inr (Or.inl pending)
    · have intr : efBits.intr = true := by
        simpa [here, Control.owes, Control.serving, Control.taken] using owed
      exact (keeps efBits here idle intr).imp_right Or.inl
  | works here there => exact Or.inr (Or.inr (serving_owes there))
  | unmasks => exact Or.inl rfl
  | testsInTx here | turnEnds here | linkStays here | linkLost here | recoverWrites here
    | recovered here =>
    refine armed.imp_right (Or.imp_right fun owed => ?_)
    rw [here] at owed
    cases owed

/-- A step of the thread keeps the device watched. -/
theorem thread_watched {startUp : StartUp} {outcome : Outcome} {next : Driver}
    (watched : Watched startUp) (keeps : KeepsIntr startUp (.driver (.thread outcome)))
    (moves : ThreadMoves startUp.driver outcome next) : Watched { startUp with driver := next } := by
  obtain ⟨unasked, same⟩ := thread_unasked watched.unasked moves
  refine ⟨fun starting => ?_, unasked⟩
  rw [same] at starting
  refine thread_armed watched.unasked ?_ (watched.armed starting) moves
  intro efBits here idle intr
  refine keeps outcome efBits rfl here idle ?_ intr
  rcases starting with inside | running
  · exact inside
  · rw [idle] at running
    cases running

/-- What leaves the thread where it stands, and sets no request, keeps the device
watched if it masks nothing or signals INTR. -/
theorem aside_watched {startUp : StartUp} {tx : State} {intrStat intrMask : IntrBits}
    (watched : Watched startUp) (start : tx.events.start = startUp.driver.tx.events.start)
    (stop : tx.events.stop = startUp.driver.tx.events.stop)
    (intr : startUp.driver.tx.events.intr = true → tx.events.intr = true)
    (mask : intrMask = startUp.driver.intrMask ∨ tx.events.intr = true) :
    Watched { startUp with
      driver := { startUp.driver with tx := tx, intrStat := intrStat, intrMask := intrMask } } := by
  constructor
  · intro starting
    rcases mask with rfl | signalled
    · exact (watched.armed starting).imp_right (Or.imp_left intr)
    · exact Or.inr (Or.inl signalled)
  · constructor
    · exact start.trans watched.unasked.noStart
    · exact stop.trans watched.unasked.noStop
    · exact watched.unasked.taken
    · exact watched.unasked.place

/-- A step of the driver without requests keeps the device watched. -/
theorem driver_watched {startUp : StartUp} {action : DriverAction} {next : Driver}
    (watched : Watched startUp) (keeps : KeepsIntr startUp (.driver action))
    (plain : action.request = false) (moves : DriverMoves startUp.driver action next) :
    Watched { startUp with driver := next } := by
  cases moves with
  | traffic traffic events =>
    apply aside_watched watched events.start events.stop
    · exact events.intr.trans
    · exact Or.inl rfl
  | raise sources =>
    apply aside_watched watched rfl rfl
    · exact id
    · exact Or.inl rfl
  | dev9IntrCb pending events =>
    apply aside_watched watched
    · simp [events, EventFlag.set, EventFlag.clear]
    · simp [events, EventFlag.set, EventFlag.clear]
    · simp [events, EventFlag.set]
    · right
      simp [events, EventFlag.set]
  | signals signals events =>
    cases action with
    | linkCheckTimer =>
      cases signals
      apply aside_watched watched
      · simp [events, EventFlag.set, EventFlag.clear]
      · simp [events, EventFlag.set, EventFlag.clear]
      · simp [events, EventFlag.set, EventFlag.clear]
      · exact Or.inl rfl
    | smapStart | smapStop => cases plain
    | _ => cases signals
  | smapStopFlag => cases plain
  | thread moves => exact thread_watched watched keeps moves

/-- A step of `SMAPInitStart` keeps the device watched: it enables the interrupts
before anything else. -/
theorem initStart_watched {startUp next : StartUp} {phy : PhyStep} (watched : Watched startUp)
    (taken : startUp.stepInitStart phy = some next) : Watched next := by
  have inside (place : startUp.initStart ≠ .outside) : startUp.driver.RxArmed :=
    watched.armed (Or.inl place)
  cases here : startUp.initStart with
  | outside =>
    simp only [StartUp.stepInitStart, here] at taken
    split at taken
    · cases taken
      exact watched
    · cases taken
      exact ⟨fun _ => Or.inl rfl, ⟨watched.unasked.noStart, watched.unasked.noStop,
        watched.unasked.taken, watched.unasked.place⟩⟩
  | initPhy =>
    have armed := inside (by rw [here]; rintro ⟨⟩)
    simp only [StartUp.stepInitStart, here] at taken
    cases phy with
    | writes linkStatus =>
      obtain ⟨driver, lifted, rfl⟩ := Option.map_eq_some_iff.mp taken
      obtain ⟨idle, rfl⟩ := lift_link lifted
      rw [← here]
      apply aside_watched watched
      · rfl
      · rfl
      · exact id
      · exact Or.inl rfl
    | returns ok =>
      simp only at taken
      split at taken
      · cases taken
        exact ⟨fun _ => armed, watched.unasked⟩
      · cases taken
        exact ⟨fun _ => armed, ⟨watched.unasked.noStart, watched.unasked.noStop,
          watched.unasked.taken, watched.unasked.place⟩⟩
  | enableMac =>
    have armed := inside (by rw [here]; rintro ⟨⟩)
    simp only [StartUp.stepInitStart, here] at taken
    cases taken
    exact ⟨fun _ => armed, ⟨watched.unasked.noStart, watched.unasked.noStop,
      watched.unasked.taken, watched.unasked.place⟩⟩
  | linkStateUp =>
    have armed := inside (by rw [here]; rintro ⟨⟩)
    simp only [StartUp.stepInitStart, here] at taken
    cases taken
    exact ⟨fun _ => armed, watched.unasked⟩

/-- Every step that keeps INTR keeps the device watched. -/
theorem step_watched {startUp next : StartUp} {action : StartUpAction} (watched : Watched startUp)
    (keeps : KeepsIntr startUp action) (taken : startUp.step action = some next) : Watched next := by
  cases action with
  | initStart phy => exact initStart_watched watched taken
  | driver action =>
    simp only [StartUp.step] at taken
    split at taken
    · cases taken
    next plain =>
      obtain ⟨driver, moved, rfl⟩ := Option.map_eq_some_iff.mp taken
      exact driver_watched watched keeps (by simpa using plain) (driver_moves moved)

/-- At `WaitEventFlag` the thread has nothing in hand. -/
theorem watched_unmasked {startUp : StartUp} (watched : Watched startUp) : Unmasked startUp := by
  intro waits running _ quiet
  rcases watched.armed (Or.inr running) with enabled | pending | owed
  · exact enabled
  · rw [quiet] at pending
    cases pending
  · rw [waits] at owed
    cases owed

/-- A run in which the thread drops no INTR event that `SMAPInitStart` relies on never
leaves the receive interrupts masked.

Proof: by induction on the run: a device that is starting or started has its receive
interrupts enabled, or an event pending that will enable them. Only the thread can drop
that event, where it takes INTR in `InitPHY`. -/
theorem receive_unmasked {steps : List (StartUp × StartUpAction)} {startUp : StartUp}
    (run : Runs.Run StartUp.step ThreadStarted steps startUp) (keeps : Runs.Meets KeepsIntr steps) :
    Unmasked startUp := by
  have watched : Watched startUp := by
    refine Runs.invariant (fun _ startUp => Watched startUp) ?_ ?_ run keeps
    · intro start started
      exact threadStarted_watched started
    · intro earlier before action next watched keeps taken
      exact step_watched watched keeps taken
  exact watched_unmasked watched

/-- The idle driver is one that a run can start from. -/
theorem idleDriver_threadStarted : ThreadStarted ⟨idleDriver, .outside⟩ where
  waiting := idleDriver_waiting
  events := rfl
  uninitialized := rfl
  intrMask := rfl
  initStart := rfl

/-- `SMAPInitStart` once `InitPHY` has found a link. -/
def initStartEnds : List StartUpAction :=
  [.initStart (.writes true)] ++ List.replicate 3 (.initStart (.returns true))

/-- A frame comes in during `InitPHY`. -/
def frameComesIn : List StartUpAction :=
  [.driver (.raise ⟨false, true, false, false⟩), .driver .dev9IntrCb]

/-- The thread does not come to discard an event. -/
def keepsIntr (startUp : StartUp) : Bool :=
  match startUp.driver.control with
  | .dispatch _ => startUp.driver.smapIsInitialized
  | _ => true

/-- The test on a state implies that its next step drops no INTR event. -/
theorem keepsIntr_of {startUp : StartUp} {action : StartUpAction} (checked : keepsIntr startUp = true) :
    KeepsIntr startUp action := by
  intro outcome efBits _ here idle
  simp [keepsIntr, here, idle] at checked

/-- A frame comes in during `InitPHY`, and the thread turns to it when the device is
initialised. -/
theorem receive_unmasked_late : ∃ steps startUp, Runs.Run StartUp.step ThreadStarted steps startUp ∧
    startUp.driver.control = .wait ∧ startUp.driver.smapIsInitialized = true ∧ Unmasked startUp := by
  obtain ⟨steps, startUp, run, ⟨waits, running⟩, checked⟩ := Runs.run_of_performed StartUp.step
    (fun steps startUp => (startUp.driver.control = .wait ∧ startUp.driver.smapIsInitialized = true) ∧
      ∀ entry ∈ steps, keepsIntr entry.1 = true)
    idleDriver_threadStarted ([.initStart (.writes false)] ++ frameComesIn ++ initStartEnds ++
      (threadTurns 14).map .driver) (by decide)
  exact ⟨steps, startUp, run, waits, running,
    receive_unmasked run fun entry member => keepsIntr_of (checked entry member)⟩

/-- A frame comes in during `InitPHY`, and the thread takes its event before the device
is initialised: nothing enables the receive interrupts afterwards. -/
theorem receive_masked : ∃ steps startUp, Runs.Run StartUp.step ThreadStarted steps startUp ∧
    ¬ Unmasked startUp := by
  obtain ⟨steps, startUp, run, ⟨waits, running⟩, ⟨outside, quiet⟩, masked⟩ :=
    Runs.run_of_performed StartUp.step
    (fun _ startUp => (startUp.driver.control = .wait ∧ startUp.driver.smapIsInitialized = true) ∧
      (startUp.initStart = .outside ∧ startUp.driver.tx.events = .clear) ∧
      startUp.driver.rxEnabled = false)
    idleDriver_threadStarted ([.initStart (.writes false)] ++ frameComesIn ++
      (threadTurns 4).map .driver ++ initStartEnds) (by decide)
  refine ⟨steps, startUp, run, fun unmasked => ?_⟩
  have enabled := unmasked waits running outside (by rw [quiet]; rfl)
  rw [masked] at enabled
  cases enabled

end Ps2Eth.Smap
