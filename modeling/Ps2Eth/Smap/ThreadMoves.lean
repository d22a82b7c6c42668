import Ps2Eth.Smap.IntrHandler

/-!
# What the interrupt handler thread does

Every step of `IntrHandlerThread` is one of a few moves. Those that serve the
interrupts and the transmit queue touch neither the events, the link nor the
flags that start and stop the device, and stand for one move here.
-/

namespace Ps2Eth.Smap

/-- The places of a turn that serve the device, up to the one that enables its
interrupts again. -/
def Control.serving : Control → Bool
  | .emac3 _ _ | .rxend _ _ | .rxdnv _ _ _ | .txdnv _ _ _ | .txIntr _ _ | .testXmit _ _
  | .txReqs _ _ | .lastTxIntr _ _ | .enable _ _ => true
  | _ => false

/-- The link state as the driver keeps it. -/
def Driver.linkStatus (driver : Driver) : Bool := driver.tx.adapter.drv.linkStatus

/-- The actions that serve the transmit path. -/
def Action.serves : Action → Bool
  | .handleTxReqs | .handleTxIntr | .handler _ => true
  | _ => false

/-- What a step of `IntrHandlerThread` does. -/
inductive ThreadMoves (driver : Driver) (outcome : Outcome) : Driver → Prop where
  | wakes (here : driver.control = .wait) (idle : driver.tx.handler = .idle) :
      ThreadMoves driver outcome { driver with
        tx := { driver.tx with events := .clear }
        control := .stop driver.tx.events }
  | stops {efBits : EventFlag} (here : driver.control = .stop efBits) (asked : efBits.stop = true)
      (running : driver.smapIsInitialized = true) (idle : driver.tx.handler = .idle) :
      ThreadMoves driver outcome { driver with
        tx := driver.tx.setLinkStatus false
        intrMask := Driver.disableMask2 driver.intrMask
        netDevStopFlag := false
        smapIsInitialized := false
        control := .start efBits }
  | passesStop {efBits : EventFlag} (here : driver.control = .stop efBits)
      (no : efBits.stop = true → driver.smapIsInitialized = false) :
      ThreadMoves driver outcome { driver with control := .start efBits }
  | starts {efBits : EventFlag} (here : driver.control = .start efBits)
      (asked : efBits.start = true) (idle : driver.smapIsInitialized = false) :
      ThreadMoves driver outcome { driver with
        intrMask := Driver.enableMask2 driver.intrMask
        control := .initPhy efBits }
  | passesStart {efBits : EventFlag} (here : driver.control = .start efBits)
      (no : efBits.start = true → driver.smapIsInitialized = true) :
      ThreadMoves driver outcome { driver with control := .dispatch efBits }
  | phyWrites {efBits : EventFlag} {linkStatus : Bool} (here : driver.control = .initPhy efBits)
      (phy : outcome.phy = .writes linkStatus) (idle : driver.tx.handler = .idle) :
      ThreadMoves driver outcome
        { driver with tx := driver.tx.setLinkStatus linkStatus, control := .initPhy efBits }
  | phyFails {efBits : EventFlag} (here : driver.control = .initPhy efBits)
      (phy : outcome.phy = .returns false) :
      ThreadMoves driver outcome { driver with control := .ended }
  | aborts {efBits : EventFlag} (here : driver.control = .initPhy efBits)
      (phy : outcome.phy = .returns true) (stop : driver.netDevStopFlag = true) :
      ThreadMoves driver outcome { driver with netDevStopFlag := false, control := .wait }
  | phyDone {efBits : EventFlag} (here : driver.control = .initPhy efBits)
      (phy : outcome.phy = .returns true) (goesOn : driver.netDevStopFlag = false) :
      ThreadMoves driver outcome { driver with control := .enableMac efBits }
  | enables {efBits : EventFlag} (here : driver.control = .enableMac efBits) :
      ThreadMoves driver outcome
        { driver with smapIsInitialized := true, control := .dispatch efBits }
  | serves {efBits : EventFlag} {control : Control} (here : driver.control = .dispatch efBits)
      (running : driver.smapIsInitialized = true) (there : control.serving = true) :
      ThreadMoves driver outcome { driver with control := control }
  | discards {efBits : EventFlag} (here : driver.control = .dispatch efBits)
      (idle : driver.smapIsInitialized = false) :
      ThreadMoves driver outcome { driver with control := .wait }
  | works {tx : State} {intrStat : IntrBits} {control : Control}
      (here : driver.control.serving = true) (there : control.serving = true)
      (moved : tx = driver.tx ∨
        ∃ action : Action, action.serves = true ∧ driver.tx.step action = some tx) :
      ThreadMoves driver outcome { driver with tx := tx, intrStat := intrStat, control := control }
  | unmasks {efBits : EventFlag} {resetCounter : Bool}
      (here : driver.control = .enable efBits resetCounter) :
      ThreadMoves driver outcome { driver with
        intrMask := Driver.enableMask2 driver.intrMask
        control := .testInTx efBits resetCounter }
  | testsInTx {efBits : EventFlag} {resetCounter : Bool}
      (here : driver.control = .testInTx efBits resetCounter) :
      ThreadMoves driver outcome { driver with
        intrMask := { driver.intrMask with
          txdnv := driver.intrMask.txdnv || decide (0 < driver.tx.adapter.drv.numPacketsInTx) }
        control := .turnEnd efBits resetCounter }
  | turnEnds {efBits : EventFlag} {resetCounter : Bool} {counter : Int} {control : Control}
      (here : driver.control = .turnEnd efBits resetCounter)
      (there : control = .wait ∨ control = .checkLink) :
      ThreadMoves driver outcome { driver with counter := counter, control := control }
  | linkStays (here : driver.control = .checkLink) (linkUp : outcome.linkUp = true) :
      ThreadMoves driver outcome { driver with control := .wait }
  | linkLost (here : driver.control = .checkLink) (down : outcome.linkUp = false)
      (idle : driver.tx.handler = .idle) :
      ThreadMoves driver outcome
        { driver with tx := driver.tx.setLinkStatus false, control := .recoverPhy }
  | recoverWrites {linkStatus : Bool} (here : driver.control = .recoverPhy)
      (phy : outcome.phy = .writes linkStatus) (idle : driver.tx.handler = .idle) :
      ThreadMoves driver outcome
        { driver with tx := driver.tx.setLinkStatus linkStatus, control := .recoverPhy }
  | recovered {ok : Bool} (here : driver.control = .recoverPhy) (phy : outcome.phy = .returns ok) :
      ThreadMoves driver outcome { driver with control := .wait }

/-- Serving the transmit path leaves the events and `LinkStatus` alone. -/
theorem serves_same {state next : State}
    (moved : next = state ∨ ∃ action : Action, action.serves = true ∧ state.step action = some next) :
    next.events = state.events ∧ next.adapter.drv.linkStatus = state.adapter.drv.linkStatus := by
  rcases moved with rfl | ⟨action, serves, taken⟩
  · exact ⟨rfl, rfl⟩
  · cases step_moves taken with
    | handleTxReqs | handleTxIntr | peek | nothing | publish | fits | dropped | full | copy | bd
      | unpublish | unlink | unlinkEmpty | clear | free | reaped => exact ⟨rfl, rfl⟩
    | reap here done =>
      obtain ⟨-, -, -, -, -, -, -, -, -, same⟩ := Adapter.reap_cases done
      exact ⟨rfl, same⟩
    | _ => simp [Action.serves] at serves

section Lifted

variable {driver next : Driver} {control : Control}

/-- Writing `LinkStatus` is left to the thread outside of its handlers. -/
theorem lift_link {up : Bool} (taken : driver.lift (.link up) control = some next) :
    driver.tx.handler = .idle ∧
      next = { driver with tx := driver.tx.setLinkStatus up, control := control } := by
  obtain ⟨tx, moves, rfl⟩ := Driver.lift_some taken
  cases moves with
  | link _ idle => exact ⟨idle, rfl⟩

/-- A lifted step of one of the handlers is a step of the transmit machine that serves, or
none. -/
theorem lift_serves {action : Action} (serves : action.serves = true)
    (taken : driver.lift action control = some next) :
    ∃ tx : State, (tx = driver.tx ∨
        ∃ action : Action, action.serves = true ∧ driver.tx.step action = some tx) ∧
      next = { driver with tx := tx, control := control } := by
  obtain ⟨tx, moved, rfl⟩ := Option.map_eq_some_iff.mp taken
  exact ⟨tx, Or.inr ⟨action, serves, moved⟩, rfl⟩

end Lifted

/-- A step of `IntrHandlerThread` is one of the moves. -/
theorem thread_moves {driver next : Driver} {outcome : Outcome}
    (taken : driver.stepThread outcome = some next) : ThreadMoves driver outcome next := by
  cases here : driver.control with
  | wait =>
    simp only [Driver.stepThread, here] at taken
    split at taken
    · cases taken
    · obtain ⟨tx, moves, rfl⟩ := Driver.lift_some taken
      cases moves with
      | waitEvents idle => exact .wakes here idle
  | stop efBits =>
    simp only [Driver.stepThread, here] at taken
    by_cases stops : efBits.stop && driver.smapIsInitialized
    · rw [if_pos stops] at taken
      obtain ⟨asked, running⟩ := Bool.and_eq_true_iff.mp stops
      obtain ⟨idle, rfl⟩ := lift_link taken
      exact .stops here asked running idle
    · rw [if_neg stops] at taken
      cases taken
      refine .passesStop here fun asked => ?_
      simpa [asked] using stops
  | start efBits =>
    simp only [Driver.stepThread, here] at taken
    by_cases starts : efBits.start && !driver.smapIsInitialized
    · rw [if_pos starts] at taken
      cases taken
      obtain ⟨asked, idle⟩ := Bool.and_eq_true_iff.mp starts
      exact .starts here asked (by simpa using idle)
    · rw [if_neg starts] at taken
      cases taken
      refine .passesStart here fun asked => ?_
      simpa [asked] using starts
  | initPhy efBits =>
    simp only [Driver.stepThread, here] at taken
    cases phy : outcome.phy with
    | writes linkStatus =>
      simp only [phy] at taken
      obtain ⟨idle, rfl⟩ := lift_link taken
      exact .phyWrites here phy idle
    | returns ok =>
      cases ok with
      | false =>
        simp only [phy] at taken
        cases taken
        exact .phyFails here phy
      | true =>
        simp only [phy] at taken
        by_cases stop : driver.netDevStopFlag
        · rw [if_pos stop] at taken
          cases taken
          exact .aborts here phy stop
        · rw [if_neg stop] at taken
          cases taken
          exact .phyDone here phy (by simpa using stop)
  | enableMac efBits =>
    simp only [Driver.stepThread, here] at taken
    cases taken
    exact .enables here
  | dispatch efBits =>
    simp only [Driver.stepThread, here] at taken
    by_cases running : driver.smapIsInitialized
    · rw [if_pos running] at taken
      split at taken
      · cases taken
        exact .serves here running rfl
      · cases taken
        exact .serves here running rfl
    · rw [if_neg running] at taken
      cases taken
      exact .discards here (by simpa using running)
  | emac3 | rxend | rxdnv =>
    simp only [Driver.stepThread, here] at taken
    cases taken
    exact .works (by rw [here]; rfl) rfl (Or.inl rfl)
  | txdnv efBits intrReg resetCounter =>
    simp only [Driver.stepThread, here] at taken
    split at taken
    · obtain ⟨tx, moved, rfl⟩ := lift_serves rfl taken
      exact .works (by rw [here]; rfl) rfl moved
    · cases taken
      exact .works (by rw [here]; rfl) rfl (Or.inl rfl)
  | txIntr | lastTxIntr =>
    simp only [Driver.stepThread, here] at taken
    split at taken
    · cases taken
      exact .works (by rw [here]; rfl) rfl (Or.inl rfl)
    · obtain ⟨tx, moved, rfl⟩ := lift_serves rfl taken
      exact .works (by rw [here]; rfl) rfl moved
  | testXmit | txReqs =>
    simp only [Driver.stepThread, here] at taken
    split at taken
    all_goals
      obtain ⟨tx, moved, rfl⟩ := lift_serves rfl taken
      exact .works (by rw [here]; rfl) rfl moved
  | enable efBits resetCounter =>
    simp only [Driver.stepThread, here] at taken
    cases taken
    exact .unmasks here
  | testInTx efBits resetCounter =>
    simp only [Driver.stepThread, here] at taken
    have tested : ThreadMoves driver outcome _ := .testsInTx here
    by_cases flying : 0 < driver.tx.adapter.drv.numPacketsInTx
    · rw [if_pos flying] at taken
      cases taken
      simpa only [flying, decide_true, Bool.or_true] using tested
    · rw [if_neg flying] at taken
      cases taken
      simpa only [flying, decide_false, Bool.or_false] using tested
  | turnEnd efBits resetCounter =>
    simp only [Driver.stepThread, here] at taken
    repeat' split at taken
    all_goals cases taken
    · exact .turnEnds here (Or.inl rfl)
    · exact .turnEnds here (Or.inr rfl)
    · exact .turnEnds here (Or.inl rfl)
    · exact .turnEnds here (Or.inl rfl)
  | checkLink =>
    simp only [Driver.stepThread, here] at taken
    by_cases up : outcome.linkUp
    · rw [if_pos up] at taken
      cases taken
      exact .linkStays here up
    · rw [if_neg up] at taken
      obtain ⟨idle, rfl⟩ := lift_link taken
      exact .linkLost here (by simpa using up) idle
  | recoverPhy =>
    simp only [Driver.stepThread, here] at taken
    cases phy : outcome.phy with
    | writes linkStatus =>
      simp only [phy] at taken
      obtain ⟨idle, rfl⟩ := lift_link taken
      exact .recoverWrites here phy idle
    | returns ok =>
      simp only [phy] at taken
      cases taken
      exact .recovered here phy
  | ended => simp [Driver.stepThread, here] at taken

/-- Two event flags that differ in XMIT at most. -/
structure SameRequests (events others : EventFlag) : Prop where
  start : events.start = others.start
  stop : events.stop = others.stop
  intr : events.intr = others.intr
  linkCheck : events.linkCheck = others.linkCheck

/-- The actions of the transmit path outside of `IntrHandlerThread`. -/
def DriverAction.traffic : DriverAction → Bool
  | .output _ | .tcpip | .complete _ _ => true
  | _ => false

/-- The events that an action sets. -/
def DriverAction.signals : DriverAction → Option EventFlag
  | .linkCheckTimer => some { EventFlag.clear with linkCheck := true }
  | .smapStart => some { EventFlag.clear with start := true }
  | .smapStop => some { EventFlag.clear with stop := true }
  | _ => none

/-- What a step of the driver does. -/
inductive DriverMoves (driver : Driver) : DriverAction → Driver → Prop where
  | traffic {action : DriverAction} {tx : State} (traffic : action.traffic = true)
      (events : SameRequests tx.events driver.tx.events)
      (linkStatus : tx.adapter.drv.linkStatus = driver.linkStatus) :
      DriverMoves driver action { driver with tx := tx }
  | raise (sources : IntrBits) :
      DriverMoves driver (.raise sources) { driver with intrStat := driver.intrStat.union sources }
  | dev9IntrCb {tx : State} (pending : driver.intrStat.inter driver.intrMask ≠ .none)
      (events : tx.events = driver.tx.events.set { EventFlag.clear with intr := true })
      (linkStatus : tx.adapter.drv.linkStatus = driver.linkStatus) :
      DriverMoves driver .dev9IntrCb { driver with tx := tx, intrMask := .none }
  | signals {action : DriverAction} {bits : EventFlag} {tx : State} (signals : action.signals = some bits)
      (events : tx.events = driver.tx.events.set bits)
      (linkStatus : tx.adapter.drv.linkStatus = driver.linkStatus) :
      DriverMoves driver action { driver with tx := tx }
  | smapStopFlag : DriverMoves driver .smapStopFlag { driver with netDevStopFlag := true }
  | thread {outcome : Outcome} {next : Driver} (moves : ThreadMoves driver outcome next) :
      DriverMoves driver (.thread outcome) next

section Others

variable {driver next : Driver}

/-- The traffic sets no event but XMIT and leaves `LinkStatus` alone. -/
theorem lift_traffic {action : Action} (traffic : (∃ call, action = .output call) ∨
    action = .tcpip ∨ ∃ index ctrlStat, action = .complete index ctrlStat)
    (taken : driver.lift action driver.control = some next) :
    ∃ tx : State, SameRequests tx.events driver.tx.events ∧
      tx.adapter.drv.linkStatus = driver.linkStatus ∧ next = { driver with tx := tx } := by
  obtain ⟨tx, moves, rfl⟩ := Driver.lift_some taken
  refine ⟨tx, ?_, ?_, rfl⟩
  · cases moves with
    | refused | coalesced | whole | enq | linked | unlinked | signal | take | leave | drain | drained
      | drainUnlink | drainEmpty | drainClear | drainFree | complete => exact ⟨rfl, rfl, rfl, rfl⟩
    | _ => simp at traffic
  · cases moves with
    | refused | coalesced | whole | enq | linked | unlinked | signal | take | leave | drain | drained
      | drainUnlink | drainEmpty | drainClear | drainFree | complete => rfl
    | _ => simp at traffic

/-- A lifted signal sets its bits among the pending events and changes nothing else. -/
theorem lift_signals {bits : EventFlag} (taken : driver.lift (.setEvents bits) driver.control = some next) :
    ∃ tx : State, tx.events = driver.tx.events.set bits ∧
      tx.adapter.drv.linkStatus = driver.linkStatus ∧ next = { driver with tx := tx } := by
  obtain ⟨tx, moves, rfl⟩ := Driver.lift_some taken
  cases moves with
  | setEvents => exact ⟨{ driver.tx with events := driver.tx.events.set bits }, rfl, rfl, rfl⟩

end Others

/-- Every step of the driver is one of the moves. -/
theorem driver_moves {driver next : Driver} {action : DriverAction}
    (taken : driver.step action = some next) : DriverMoves driver action next := by
  cases action with
  | output call =>
    obtain ⟨tx, events, linkStatus, rfl⟩ := lift_traffic (Or.inl ⟨call, rfl⟩) taken
    exact .traffic rfl events linkStatus
  | tcpip =>
    obtain ⟨tx, events, linkStatus, rfl⟩ := lift_traffic (Or.inr (Or.inl rfl)) taken
    exact .traffic rfl events linkStatus
  | complete index ctrlStat =>
    obtain ⟨tx, events, linkStatus, rfl⟩ := lift_traffic (Or.inr (Or.inr ⟨index, ctrlStat, rfl⟩)) taken
    exact .traffic rfl events linkStatus
  | raise sources =>
    cases taken
    exact .raise sources
  | dev9IntrCb =>
    simp only [Driver.step] at taken
    split at taken
    · cases taken
    next pending =>
      obtain ⟨tx, events, linkStatus, rfl⟩ := lift_signals taken
      exact .dev9IntrCb pending events linkStatus
  | linkCheckTimer | smapStart | smapStop =>
    obtain ⟨tx, events, linkStatus, rfl⟩ := lift_signals taken
    exact .signals rfl events linkStatus
  | smapStopFlag =>
    cases taken
    exact .smapStopFlag
  | thread outcome => exact .thread (thread_moves taken)

/-- The driver as `smap_init` leaves it: the thread waits, and the device is not
initialised. -/
def idleDriver : Driver where
  tx := freshDriver
  control := .wait
  smapIsInitialized := false
  netDevStopFlag := false
  intrStat := .none
  intrMask := .none
  counter := 3

/-- The idle driver waits, so that runs can start from it. -/
theorem idleDriver_waiting : Waiting idleDriver := ⟨freshDriver_fresh, rfl⟩

/-- The next steps of `IntrHandlerThread`, all answers favourable. -/
def threadTurns (turns : Nat) : List DriverAction :=
  List.replicate turns (.thread ⟨true, true, true, .returns true⟩)

end Ps2Eth.Smap
