import Ps2Eth.Smap.LinkWitness
import Ps2Eth.Smap.ThreadMoves

/-!
# Recovering the link in the smap driver

`CheckLinkStatus` of `smap/smap.c` looks at the link bit of BMSR. When the link is
lost it clears `LinkStatus`, tells the stack, and calls `InitPHY`; it tells the stack
again when `LinkStatus` is set then. The driver is put together here with the calls
of `InitPHY`, access by access, and with what the stack was told.

`InitPHY` may return -1, and `CheckLinkStatus` does not look at what it returns. The
next check finds the link bit set and does nothing.
-/

namespace Ps2Eth.Smap

open InitPHY (Event Pc hasBits dsPhyterBmsr phyBmsrLink)

/-- What the stack is told, through `PS2IPLinkStateUp` and `PS2IPLinkStateDown`. -/
inductive LinkState where
  | up
  | down
deriving DecidableEq

/-- The driver with the last call of `InitPHY`, the last notification and the last
value read from BMSR. -/
structure Recovery where
  driver : Driver
  call : InitPHY.Call
  notified : Option LinkState
  bmsr : BitVec 16
  /-- `CheckLinkStatus` has just returned. -/
  checked : Bool
  /-- Its last call of `InitPHY` for this start of the device returned -1. -/
  failed : Bool

/-- What happens next: in the driver, in its thread, at a read of `CheckLinkStatus` or at
an access of `InitPHY`. -/
inductive RecoveryAction where
  /-- A step of the driver outside of `IntrHandlerThread`. -/
  | driver (action : DriverAction)
  /-- `IntrHandlerThread` goes on. -/
  | thread (dmaOk received : Bool)
  /-- `CheckLinkStatus` reads BMSR. -/
  | checkLink (value : Option (BitVec 16))
  /-- An access of `InitPHY`. -/
  | initPhy (event : Event)

/-- The thread is in a call of `InitPHY`. -/
def Control.inInitPhy : Control → Bool
  | .initPhy _ | .recoverPhy => true
  | _ => false

namespace Recovery

variable (options : InitPHY.Options) (recovery : Recovery)

/-- `InitPHY` is called, with the link status that its caller has just written. -/
def enter (linkStatus : Bool) : InitPHY.Call :=
  { recovery.call with pc := .reset, linkStatus := linkStatus }

/-- The step of the thread stops or starts the device, or goes on otherwise. -/
def stepThread (dmaOk received : Bool) : Option Recovery :=
  (recovery.driver.stepThread ⟨dmaOk, received, true, .returns true⟩).map fun driver =>
    match recovery.driver.control with
    | .stop efBits =>
        if efBits.stop && recovery.driver.smapIsInitialized then
          { recovery with driver := driver, notified := some .down, checked := false }
        else { recovery with driver := driver, checked := false }
    | .start efBits =>
        if efBits.start && !recovery.driver.smapIsInitialized then
          { recovery with
            driver := driver
            call := recovery.enter recovery.driver.linkStatus
            checked := false }
        else { recovery with driver := driver, checked := false }
    | .enableMac _ =>
        { recovery with driver := driver, notified := some .up, checked := false, failed := false }
    | _ => { recovery with driver := driver, checked := false }

/-- `InitPHY` returns to the start of the device, or to `CheckLinkStatus`. -/
def returns (ok : Bool) : Option Recovery :=
  (recovery.driver.stepThread ⟨true, true, true, .returns ok⟩).map fun driver =>
    match recovery.driver.control with
    | .recoverPhy =>
        { recovery with
          driver := driver
          notified := if recovery.driver.linkStatus then some .up else recovery.notified
          checked := true
          failed := !ok }
    | _ => { recovery with driver := driver, checked := false }

/-- `CheckLinkStatus` reads BMSR: it returns, or the link is lost. -/
def checkLink (value : BitVec 16) : Option Recovery :=
  (recovery.driver.stepThread ⟨true, true, hasBits value phyBmsrLink, .returns true⟩).map fun driver =>
    if hasBits value phyBmsrLink then
      { recovery with driver := driver, bmsr := value, checked := true }
    else
      { recovery with
        driver := driver
        call := recovery.enter false
        notified := some .down
        bmsr := value
        checked := false }

/-- The last value of BMSR after an access. -/
def bmsrAfter : Event → BitVec 16
  | .read reg value => if reg = dsPhyterBmsr then value.getD 0 else recovery.bmsr
  | _ => recovery.bmsr

/-- An access of `InitPHY`, which finds `NetDevStopFlag` as it is. -/
def access (event : Event) : Option Recovery :=
  if event = .stopFlag (!recovery.driver.netDevStopFlag) then none
  else
    (recovery.call.step options event).bind fun call =>
      (recovery.driver.stepThread ⟨true, true, true, .writes call.linkStatus⟩).map fun driver =>
        { recovery with
          driver := driver
          call := call
          bmsr := recovery.bmsrAfter event
          checked := false }

/-- One step, if the action is possible. -/
def step (action : RecoveryAction) : Option Recovery :=
  match action with
  | .driver (.thread _) => none
  | .driver action =>
      (recovery.driver.step action).map fun driver =>
        { recovery with driver := driver, checked := false }
  | .thread dmaOk received =>
      if recovery.driver.control.inInitPhy then
        match recovery.call.pc with
        | .returned ok => recovery.returns ok
        | _ => none
      else if recovery.driver.control = .checkLink then none
      else recovery.stepThread dmaOk received
  | .checkLink value =>
      if recovery.driver.control = .checkLink then recovery.checkLink (value.getD 0) else none
  | .initPhy event => if recovery.driver.control.inInitPhy then recovery.access options event else none

end Recovery

/-- The thread waits, and the stack knows of the link if the device is initialised. -/
structure Linked (recovery : Recovery) : Prop where
  waiting : Waiting recovery.driver
  linked : recovery.driver.smapIsInitialized = true →
    recovery.driver.linkStatus = true ∧ recovery.notified = some .up
  unchecked : recovery.checked = false
  unfailed : recovery.failed = false

/-- A step of the thread is a step of the thread of the driver's machine, with some
outcome. -/
theorem stepThread_drives {recovery next : Recovery} {dmaOk received : Bool}
    (taken : recovery.stepThread dmaOk received = some next) :
    ∃ outcome, recovery.driver.stepThread outcome = some next.driver := by
  obtain ⟨driver, moved, rfl⟩ := Option.map_eq_some_iff.mp taken
  refine ⟨_, moved.trans (congrArg some ?_)⟩
  cases recovery.driver.control with
  | stop | start =>
    dsimp only
    split
    · rfl
    · rfl
  | _ => rfl

/-- So is the return of `InitPHY`, which the driver's machine has as an outcome. -/
theorem returns_drives {recovery next : Recovery} {ok : Bool}
    (taken : recovery.returns ok = some next) :
    ∃ outcome, recovery.driver.stepThread outcome = some next.driver := by
  obtain ⟨driver, moved, rfl⟩ := Option.map_eq_some_iff.mp taken
  refine ⟨_, moved.trans (congrArg some ?_)⟩
  cases recovery.driver.control with
  | _ => rfl

/-- So is the read of BMSR in `CheckLinkStatus`. -/
theorem checkLink_drives {recovery next : Recovery} {value : BitVec 16}
    (taken : recovery.checkLink value = some next) :
    ∃ outcome, recovery.driver.stepThread outcome = some next.driver := by
  obtain ⟨driver, moved, rfl⟩ := Option.map_eq_some_iff.mp taken
  refine ⟨_, moved.trans (congrArg some ?_)⟩
  split
  · rfl
  · rfl

/-- So is an access of `InitPHY`, seen from outside. -/
theorem access_drives {options : InitPHY.Options} {recovery next : Recovery} {event : Event}
    (taken : recovery.access options event = some next) :
    ∃ outcome, recovery.driver.stepThread outcome = some next.driver := by
  unfold Recovery.access at taken
  split at taken
  · cases taken
  · obtain ⟨call, -, mapped⟩ := Option.bind_eq_some_iff.mp taken
    obtain ⟨driver, moved, rfl⟩ := Option.map_eq_some_iff.mp mapped
    exact ⟨_, moved⟩

/-- Every step is one of the driver. -/
theorem recovery_drives {options : InitPHY.Options} {steps : List (Recovery × RecoveryAction)}
    {recovery : Recovery} (run : Runs.Run (Recovery.step options) Linked steps recovery) :
    ∃ seen, DriverRun seen recovery.driver := by
  refine Runs.run_view (?_ : ∀ start, Linked start → Waiting (Recovery.driver start)) ?_ run
  · exact fun start linked => linked.waiting
  · intro before action next taken
    right
    have byThread (moves : ∃ outcome, before.driver.stepThread outcome = some next.driver) :
        ∃ action, before.driver.step action = some next.driver := by
      obtain ⟨outcome, moved⟩ := moves
      exact ⟨.thread outcome, moved⟩
    cases action with
    | driver action =>
      cases action with
      | thread => cases taken
      | _ =>
        simp only [Recovery.step] at taken
        obtain ⟨driver, moved, rfl⟩ := Option.map_eq_some_iff.mp taken
        exact ⟨_, moved⟩
    | thread dmaOk received =>
      simp only [Recovery.step] at taken
      split at taken
      · split at taken
        · exact byThread (returns_drives taken)
        · cases taken
      · split at taken
        · cases taken
        · exact byThread (stepThread_drives taken)
    | checkLink value =>
      simp only [Recovery.step] at taken
      split at taken
      · exact byThread (checkLink_drives taken)
      · cases taken
    | initPhy event =>
      simp only [Recovery.step] at taken
      split at taken
      · exact byThread (access_drives taken)
      · cases taken

/-- When `CheckLinkStatus` of a running device has returned and the last BMSR value that
it read shows the link, `LinkStatus` is set and the stack was last told so. -/
def Restored (recovery : Recovery) : Prop :=
  recovery.checked = true → recovery.driver.smapIsInitialized = true →
    recovery.driver.netDevStopFlag = false → hasBits recovery.bmsr phyBmsrLink = true →
    recovery.driver.linkStatus = true ∧ recovery.notified = some .up

/-- `CheckLinkStatus` of a running device does not find the link bit after `InitPHY`
has failed to recover the link. -/
def ChecksRecovered (recovery : Recovery) (action : RecoveryAction) : Prop :=
  ∀ value, action = .checkLink value → recovery.driver.smapIsInitialized = true →
    recovery.driver.netDevStopFlag = false → hasBits (value.getD 0) phyBmsrLink = true →
    recovery.failed = false

/-- The places before `InitPHY` looks at BMSR, and the failed end. -/
def InitPHY.Pc.early : Pc → Bool
  | .reset | .resetRead | .returned false => true
  | _ => false

/-- The places outside of a start of the device and of a recovery of the link. -/
def Control.aside : Control → Bool
  | .initPhy _ | .enableMac _ | .recoverPhy => false
  | _ => true

/-- What the driver, the call of `InitPHY` and the stack know of the link. -/
structure Tracked (recovery : Recovery) : Prop where
  quietChip : recovery.driver.control.inInitPhy = true → recovery.call.pc.QuietChip
  sameLink : recovery.driver.control.inInitPhy = true →
    recovery.driver.linkStatus = recovery.call.linkStatus
  seen : recovery.driver.control.inInitPhy = true → recovery.call.pc.settled = true →
    recovery.driver.netDevStopFlag = true ∨ recovery.call.linkStatus = true
  early : recovery.driver.control = .recoverPhy → recovery.call.pc.early = true →
    recovery.call.linkStatus = false ∧ hasBits recovery.bmsr phyBmsrLink = false
  place : ∀ efBits, recovery.driver.control = .initPhy efBits ∨
    recovery.driver.control = .enableMac efBits → recovery.driver.smapIsInitialized = false
  enabling : ∀ efBits, recovery.driver.control = .enableMac efBits →
    recovery.driver.netDevStopFlag = true ∨ recovery.driver.linkStatus = true
  lowered : recovery.driver.control = .recoverPhy ∨
    (recovery.failed = true ∧ recovery.driver.smapIsInitialized = true) →
    recovery.notified = some .down
  kept : recovery.driver.smapIsInitialized = true → recovery.driver.control ≠ .recoverPhy →
    recovery.failed = true ∨ recovery.driver.netDevStopFlag = true ∨
      (recovery.driver.linkStatus = true ∧ recovery.notified = some .up)

/-- Outside of `InitPHY` nothing is to be known of its call. -/
theorem outside_tracked {recovery : Recovery} (outside : recovery.driver.control.inInitPhy = false)
    (enabling : ∀ efBits, recovery.driver.control = .enableMac efBits →
      recovery.driver.smapIsInitialized = false ∧
        (recovery.driver.netDevStopFlag = true ∨ recovery.driver.linkStatus = true))
    (lowered : recovery.failed = true → recovery.driver.smapIsInitialized = true →
      recovery.notified = some .down)
    (kept : recovery.driver.smapIsInitialized = true →
      recovery.failed = true ∨ recovery.driver.netDevStopFlag = true ∨
        (recovery.driver.linkStatus = true ∧ recovery.notified = some .up)) :
    Tracked recovery := by
  constructor
  · simp [outside]
  · simp [outside]
  · simp [outside]
  · intro here
    rw [here] at outside
    cases outside
  · rintro efBits (here | here)
    · rw [here] at outside
      cases outside
    · exact (enabling efBits here).1
  · exact fun efBits here => (enabling efBits here).2
  · rintro (here | ⟨failed, running⟩)
    · rw [here] at outside
      cases outside
    · exact lowered failed running
  · exact fun running _ => kept running

/-- While the device is not initialised, and its start not at the last write, no link is
promised. -/
theorem idle_tracked {recovery : Recovery} (idle : recovery.driver.smapIsInitialized = false)
    (outside : recovery.driver.control.inInitPhy = false)
    (enabling : ∀ efBits, recovery.driver.control = .enableMac efBits →
      recovery.driver.netDevStopFlag = true ∨ recovery.driver.linkStatus = true) :
    Tracked recovery := by
  apply outside_tracked outside
  · exact fun efBits here => ⟨idle, enabling efBits here⟩
  · intro _ running
    rw [idle] at running
    cases running
  · intro running
    rw [idle] at running
    cases running

/-- A driver that waits with its link in order is tracked. -/
theorem linked_tracked {recovery : Recovery} (linked : Linked recovery) : Tracked recovery := by
  have control := linked.waiting.control
  apply outside_tracked
  · rw [control]
    rfl
  · intro efBits here
    rw [control] at here
    cases here
  · intro failed
    rw [linked.unfailed] at failed
    cases failed
  · exact fun running => Or.inr (Or.inr (linked.linked running))

/-- A step of the driver that has nothing to do with the link. -/
theorem moved_tracked {recovery : Recovery} {driver : Driver} {checked : Bool} {bmsr : BitVec 16}
    (tracked : Tracked recovery) (running : driver.smapIsInitialized = recovery.driver.smapIsInitialized)
    (flag : recovery.driver.netDevStopFlag = true → driver.netDevStopFlag = true)
    (link : driver.linkStatus = recovery.driver.linkStatus)
    (place : (driver.control = recovery.driver.control ∧ bmsr = recovery.bmsr) ∨
      (recovery.driver.control ≠ .recoverPhy ∧ driver.control.aside = true)) :
    Tracked { recovery with driver := driver, bmsr := bmsr, checked := checked } := by
  have stays (inside : driver.control.aside = false) :
      driver.control = recovery.driver.control ∧ bmsr = recovery.bmsr := by
    rcases place with same | ⟨_, aside⟩
    · exact same
    · rw [inside] at aside
      cases aside
  have inCall (inside : driver.control.inInitPhy = true) :
      recovery.driver.control.inInitPhy = true := by
    refine (stays ?_).1 ▸ inside
    cases here : driver.control with
    | initPhy | recoverPhy => rfl
    | _ => simp [here, Control.inInitPhy] at inside
  constructor
  · exact fun inside => tracked.quietChip (inCall inside)
  · exact fun inside => link.trans (tracked.sameLink (inCall inside))
  · exact fun inside settled => (tracked.seen (inCall inside) settled).imp_left flag
  · intro (here : driver.control = .recoverPhy) early
    obtain ⟨control, same⟩ := stays (by rw [here]; rfl)
    have known := tracked.early (control ▸ here) early
    exact ⟨known.1, same ▸ known.2⟩
  · intro efBits (here : driver.control = .initPhy efBits ∨ driver.control = .enableMac efBits)
    have control : driver.control = recovery.driver.control := by
      rcases here with here | here
      · exact (stays (by rw [here]; rfl)).1
      · exact (stays (by rw [here]; rfl)).1
    exact running.trans (tracked.place efBits (control ▸ here))
  · intro efBits (here : driver.control = .enableMac efBits)
    have control := (stays (by rw [here]; rfl)).1
    exact (tracked.enabling efBits (control ▸ here)).imp flag link.trans
  · rintro ((here : driver.control = .recoverPhy) | ⟨failed, on⟩)
    · have control := (stays (by rw [here]; rfl)).1
      exact tracked.lowered (Or.inl (control ▸ here))
    · exact tracked.lowered (Or.inr ⟨failed, running ▸ on⟩)
  · intro on elsewhere
    have before : recovery.driver.control ≠ .recoverPhy := by
      rcases place with same | ⟨away, _⟩
      · exact same.1 ▸ elsewhere
      · exact away
    rcases tracked.kept (running ▸ on) before with failed | set | known
    · exact Or.inl failed
    · exact Or.inr (Or.inl (flag set))
    · exact Or.inr (Or.inr ⟨link.trans known.1, known.2⟩)

section Steps

variable {recovery next : Recovery}

/-- The writes that set up the chip come after the first look at BMSR. -/
theorem setUpChip_late (call : InitPHY.Call) (regDump : List (BitVec 16))
    (writes : List (InitPHY.PhyReg × BitVec 16)) :
    (call.setUpChip regDump writes).pc.early = false := by
  cases writes with
  | nil => rfl
  | cons => rfl

/-- A thread that serves interrupts or frames neither starts the device nor recovers the
link. -/
theorem serving_aside {control : Control} (serving : control.serving = true) :
    control.aside = true := by
  cases control with
  | initPhy | enableMac | recoverPhy => cases serving
  | _ => rfl

/-- The thread goes on outside of `InitPHY` and `CheckLinkStatus`.

Proof: by the moves of the thread. Most have nothing to do with the link; a start and a
stop have, and `enables`, where what `InitPHY` left is told to the stack. -/
theorem stepThread_tracked {dmaOk received : Bool} (tracked : Tracked recovery)
    (outside : recovery.driver.control.inInitPhy = false)
    (elsewhere : recovery.driver.control ≠ .checkLink)
    (taken : recovery.stepThread dmaOk received = some next) : Tracked next := by
  obtain ⟨driver, moved, rfl⟩ := Option.map_eq_some_iff.mp taken
  cases thread_moves moved with
  | wakes here =>
    simp only [here]
    refine moved_tracked tracked rfl id rfl (Or.inr ⟨?_, rfl⟩)
    rw [here]
    rintro ⟨⟩
  | @stops efBits here asked running =>
    have stops : (efBits.stop && recovery.driver.smapIsInitialized) = true := by
      rw [asked, running, Bool.and_self]
    simp only [here, stops, if_true]
    exact idle_tracked rfl rfl (by rintro efBits ⟨⟩)
  | @passesStop efBits here no =>
    have passes : (efBits.stop && recovery.driver.smapIsInitialized) = false := by
      cases asked : efBits.stop with
      | false => rfl
      | true => exact no asked
    simp only [here, passes]
    refine moved_tracked tracked rfl id rfl (Or.inr ⟨?_, rfl⟩)
    rw [here]
    rintro ⟨⟩
  | @starts efBits here asked idle =>
    have starts : (efBits.start && !recovery.driver.smapIsInitialized) = true := by
      rw [asked, idle, Bool.not_false, Bool.and_self]
    simp only [here, starts, if_true]
    constructor
    · exact fun _ => trivial
    · exact fun _ => rfl
    · rintro _ ⟨⟩
    · rintro ⟨⟩
    · exact fun _ _ => idle
    · rintro efBits ⟨⟩
    · rintro (⟨⟨⟩⟩ | ⟨_, on⟩)
      rw [idle] at on
      cases on
    · intro on
      rw [idle] at on
      cases on
  | @passesStart efBits here no =>
    have passes : (efBits.start && !recovery.driver.smapIsInitialized) = false := by
      cases asked : efBits.start with
      | false => rfl
      | true => simp [no asked]
    simp only [here, passes]
    refine moved_tracked tracked rfl id rfl (Or.inr ⟨?_, rfl⟩)
    rw [here]
    rintro ⟨⟩
  | phyWrites here | phyFails here | aborts here | phyDone here | recoverWrites here
    | recovered here => simp [here, Control.inInitPhy] at outside
  | linkStays here | linkLost here => exact absurd here elsewhere
  | @enables efBits here =>
    simp only [here]
    apply outside_tracked rfl
    · rintro efBits ⟨⟩
    · rintro ⟨⟩
    · intro _
      rcases tracked.enabling efBits here with set | link
      · exact Or.inr (Or.inl set)
      · exact Or.inr (Or.inr ⟨link, rfl⟩)
  | serves here running there =>
    simp only [here]
    refine moved_tracked tracked rfl id rfl (Or.inr ⟨?_, serving_aside there⟩)
    rw [here]
    rintro ⟨⟩
  | discards here | unmasks here | testsInTx here =>
    simp only [here]
    refine moved_tracked tracked rfl id rfl (Or.inr ⟨?_, rfl⟩)
    rw [here]
    rintro ⟨⟩
  | turnEnds here there =>
    simp only [here]
    refine moved_tracked tracked rfl id rfl (Or.inr ⟨?_, ?_⟩)
    · rw [here]
      rintro ⟨⟩
    · rcases there with rfl | rfl
      · rfl
      · rfl
  | works here there served =>
    cases control : recovery.driver.control with
    | wait | stop | start | initPhy | enableMac | dispatch | testInTx | turnEnd | checkLink
      | recoverPhy | ended =>
      rw [control] at here
      cases here
    | _ =>
      refine moved_tracked tracked rfl id (serves_same served).2 (Or.inr ⟨?_, serving_aside there⟩)
      rw [control]
      rintro ⟨⟩

/-- Before it looks at BMSR, `InitPHY` leaves `LinkStatus` alone. -/
theorem step_early {options : InitPHY.Options} {call after : InitPHY.Call} {event : Event}
    (taken : call.step options event = some after) (early : after.pc.early = true) :
    call.pc.early = true ∧ after.linkStatus = call.linkStatus ∧
      event.access ≠ .read dsPhyterBmsr := by
  obtain ⟨due, rfl⟩ := InitPHY.step_some taken
  cases here : call.pc with
  | reset =>
    simp only [InitPHY.Call.access, here] at due
    refine ⟨rfl, ?_, ?_⟩
    · simp only [InitPHY.Call.resume, here]
      rfl
    · rw [← Option.some.inj due]
      rintro ⟨⟩
  | resetRead =>
    simp only [InitPHY.Call.access, here] at due
    refine ⟨rfl, ?_, ?_⟩
    · simp only [InitPHY.Call.resume, here]
      repeat' split
      all_goals rfl
    · rw [← Option.some.inj due]
      decide
  | returned => simp [InitPHY.Call.access, here] at due
  | dump | errors | chip =>
    simp only [InitPHY.Call.resume, here, InitPHY.Call.identify] at early
    repeat' split at early
    all_goals first | rw [setUpChip_late] at early; cases early | cases early
  | _ =>
    simp only [InitPHY.Call.resume, here, InitPHY.Call.restartAuto, InitPHY.Call.forceFailed] at early
    repeat' split at early
    all_goals
      simp [InitPHY.Call.goto, InitPHY.Call.linked, InitPHY.Call.determine, InitPHY.Pc.early] at early

/-- The step of the thread that an access of `InitPHY` is. -/
theorem thread_access {driver after : Driver} {linkStatus : Bool}
    (inside : driver.control.inInitPhy = true)
    (moved : driver.stepThread ⟨true, true, true, .writes linkStatus⟩ = some after) :
    after = { driver with tx := driver.tx.setLinkStatus linkStatus } := by
  cases here : driver.control with
  | initPhy | recoverPhy =>
    simp only [Driver.stepThread, here] at moved
    obtain ⟨-, rfl⟩ := lift_link moved
    rfl
  | _ => simp [here, Control.inInitPhy] at inside

/-- An access of `InitPHY`.

Proof: the access is a step of the call, so what is known of the call is known of its next
state by the same lemmas. Of the
driver only `LinkStatus` changes, and becomes that of the call. -/
theorem access_tracked {options : InitPHY.Options} {event : Event} (tracked : Tracked recovery)
    (inside : recovery.driver.control.inInitPhy = true)
    (taken : recovery.access options event = some next) : Tracked next := by
  unfold Recovery.access at taken
  split at taken
  · cases taken
  next asIs =>
    obtain ⟨call, answered, mapped⟩ := Option.bind_eq_some_iff.mp taken
    obtain ⟨driver, moved, rfl⟩ := Option.map_eq_some_iff.mp mapped
    obtain rfl := thread_access inside moved
    have quietChip := tracked.quietChip inside
    constructor
    · exact fun _ => InitPHY.step_quietChip quietChip answered
    · exact fun _ => rfl
    · intro _ settled
      cases InitPHY.step_settles quietChip answered settled with
      | stays before quiet same => exact (tracked.seen inside before).imp_right same.trans
      | linked shows goesOn => exact Or.inr (by rw [goesOn]; rfl)
      | stopped stop goesOn =>
        refine Or.inl (?_ : recovery.driver.netDevStopFlag = true)
        by_contra unset
        simp [stop, unset] at asIs
    · intro here early
      obtain ⟨before, same, other⟩ := step_early answered early
      obtain ⟨unset, unlinked⟩ := tracked.early here before
      refine ⟨same.trans unset, ?_⟩
      cases event with
      | read reg value =>
        have apart : reg ≠ dsPhyterBmsr := by
          rintro rfl
          exact other rfl
        simpa only [Recovery.bmsrAfter, if_neg apart] using unlinked
      | _ => exact unlinked
    · exact tracked.place
    · rintro efBits (here : recovery.driver.control = .enableMac efBits)
      rw [here] at inside
      cases inside
    · exact tracked.lowered
    · intro running (elsewhere : recovery.driver.control ≠ .recoverPhy)
      cases here : recovery.driver.control with
      | initPhy efBits =>
        have idle := tracked.place efBits (Or.inl here)
        rw [idle] at running
        cases running
      | recoverPhy => exact absurd here elsewhere
      | _ => simp [here, Control.inInitPhy] at inside

/-- A call that returned 0 and was not stopped has found the link. -/
theorem returned_link {ok : Bool} (tracked : Tracked recovery)
    (inside : recovery.driver.control.inInitPhy = true) (returned : recovery.call.pc = .returned ok)
    (goesOn : recovery.driver.netDevStopFlag = false) :
    ok = false ∨ recovery.driver.linkStatus = true := by
  cases ok with
  | false => exact Or.inl rfl
  | true =>
    right
    rw [tracked.sameLink inside]
    rcases tracked.seen inside (by rw [returned]; rfl) with set | link
    · rw [goesOn] at set
      cases set
    · exact link

/-- `InitPHY` returns to the start of the device. -/
theorem started_tracked {ok : Bool} {efBits : EventFlag} (tracked : Tracked recovery)
    (here : recovery.driver.control = .initPhy efBits) (returned : recovery.call.pc = .returned ok)
    (taken : recovery.returns ok = some next) : Tracked next := by
  obtain ⟨driver, moved, rfl⟩ := Option.map_eq_some_iff.mp taken
  have idle := tracked.place efBits (Or.inl here)
  have found := returned_link tracked (by rw [here]; rfl) returned
  simp only [Driver.stepThread, here] at moved ⊢
  cases ok with
  | false =>
    cases moved
    exact idle_tracked idle rfl (by rintro _ ⟨⟩)
  | true =>
    simp only at moved
    split at moved
    · cases moved
      exact idle_tracked idle rfl (by rintro _ ⟨⟩)
    next goesOn =>
      cases moved
      refine idle_tracked idle rfl fun _ _ => Or.inr ?_
      exact (found (by simpa using goesOn)).resolve_left (by rintro ⟨⟩)

/-- `InitPHY` returns to `CheckLinkStatus`, with the link found or without. -/
theorem recovered_tracked {ok : Bool} (tracked : Tracked recovery)
    (here : recovery.driver.control = .recoverPhy) (returned : recovery.call.pc = .returned ok)
    (taken : recovery.returns ok = some next) : Tracked next ∧ Restored next := by
  obtain ⟨driver, moved, rfl⟩ := Option.map_eq_some_iff.mp taken
  have inside : recovery.driver.control.inInitPhy = true := by rw [here]; rfl
  have found := returned_link tracked inside returned
  have early : ok = false → recovery.driver.linkStatus = false ∧
      hasBits recovery.bmsr phyBmsrLink = false := by
    rintro rfl
    obtain ⟨unset, unlinked⟩ := tracked.early here (by rw [returned]; rfl)
    exact ⟨(tracked.sameLink inside).trans unset, unlinked⟩
  have down := tracked.lowered (Or.inl here)
  simp only [Driver.stepThread, here] at moved ⊢
  cases moved
  constructor
  · apply outside_tracked rfl
    · rintro efBits ⟨⟩
    · intro failed _
      have unset := (early (by simpa using failed)).1
      simp only [unset, Bool.false_eq_true, if_false]
      exact down
    · intro _
      by_cases set : recovery.driver.netDevStopFlag = true
      · exact Or.inr (Or.inl set)
      · rcases found (by simpa using set) with rfl | link
        · exact Or.inl rfl
        · exact Or.inr (Or.inr ⟨link, by simp only [link, if_true]⟩)
  · intro _ _ goesOn shows
    rcases found goesOn with failed | link
    · have unlinked := (early failed).2
      rw [unlinked] at shows
      cases shows
    · exact ⟨link, by simp only [link, if_true]⟩

/-- `CheckLinkStatus` finds the link bit and returns. -/
theorem linkStays_tracked {value : BitVec 16} (tracked : Tracked recovery)
    (here : recovery.driver.control = .checkLink) (shows : hasBits value phyBmsrLink = true)
    (taken : recovery.checkLink value = some next) :
    Tracked next ∧ next = { recovery with
      driver := { recovery.driver with control := .wait }
      bmsr := value
      checked := true } := by
  obtain ⟨driver, moved, rfl⟩ := Option.map_eq_some_iff.mp taken
  simp only [Driver.stepThread, here, shows, if_true] at moved ⊢
  cases moved
  refine ⟨moved_tracked tracked rfl id rfl (Or.inr ⟨?_, rfl⟩), rfl⟩
  rw [here]
  rintro ⟨⟩

/-- `CheckLinkStatus` finds the link lost. -/
theorem linkLost_tracked {value : BitVec 16}
    (here : recovery.driver.control = .checkLink) (unlinked : hasBits value phyBmsrLink = false)
    (taken : recovery.checkLink value = some next) : Tracked next ∧ next.checked = false := by
  obtain ⟨driver, moved, rfl⟩ := Option.map_eq_some_iff.mp taken
  simp only [Driver.stepThread, here, unlinked, Bool.false_eq_true, if_false] at moved ⊢
  obtain ⟨-, rfl⟩ := lift_link moved
  refine ⟨?_, trivial⟩
  constructor
  · exact fun _ => trivial
  · exact fun _ => rfl
  · rintro _ ⟨⟩
  · exact fun _ _ => ⟨rfl, unlinked⟩
  · rintro efBits (⟨⟨⟩⟩ | ⟨⟨⟩⟩)
  · rintro efBits ⟨⟩
  · exact fun _ => rfl
  · exact fun _ elsewhere => absurd rfl elsewhere

/-- A step of the driver outside of the thread. -/
theorem driver_tracked {action : DriverAction} {driver : Driver} (tracked : Tracked recovery)
    (other : ∀ outcome, action ≠ .thread outcome) (moves : DriverMoves recovery.driver action driver) :
    Tracked { recovery with driver := driver, checked := false } := by
  cases moves with
  | traffic traffic events linkStatus | dev9IntrCb pending events linkStatus
    | signals signals events linkStatus =>
    exact moved_tracked tracked rfl id linkStatus (Or.inl ⟨rfl, rfl⟩)
  | raise sources => exact moved_tracked tracked rfl id rfl (Or.inl ⟨rfl, rfl⟩)
  | smapStopFlag => exact moved_tracked tracked rfl (fun _ => rfl) rfl (Or.inl ⟨rfl, rfl⟩)
  | thread moves => exact absurd rfl (other _)

/-- Only the return of a check has to find the link restored. -/
theorem unchecked_restored (unchecked : next.checked = false) : Restored next := by
  intro checked
  rw [unchecked] at checked
  cases checked

/-- A step of the thread is no return of a check. -/
theorem stepThread_unchecked {dmaOk received : Bool}
    (taken : recovery.stepThread dmaOk received = some next) : next.checked = false := by
  obtain ⟨driver, -, rfl⟩ := Option.map_eq_some_iff.mp taken
  cases recovery.driver.control with
  | stop | start =>
    dsimp only
    split
    · rfl
    · rfl
  | _ => rfl

/-- An access of `InitPHY` is no return of a check. -/
theorem access_unchecked {options : InitPHY.Options} {event : Event}
    (taken : recovery.access options event = some next) : next.checked = false := by
  unfold Recovery.access at taken
  split at taken
  · cases taken
  · obtain ⟨call, -, mapped⟩ := Option.bind_eq_some_iff.mp taken
    obtain ⟨driver, -, rfl⟩ := Option.map_eq_some_iff.mp mapped
    rfl

/-- `InitPHY` that returns to the start of the device does not return to a check. -/
theorem started_unchecked {ok : Bool} {efBits : EventFlag}
    (here : recovery.driver.control = .initPhy efBits) (taken : recovery.returns ok = some next) :
    next.checked = false := by
  obtain ⟨driver, -, rfl⟩ := Option.map_eq_some_iff.mp taken
  rw [here]

/-- `CheckLinkStatus` finds the link bit and returns at once, without a look at what was
before. -/
inductive ChecksLink (recovery : Recovery) : RecoveryAction → Recovery → Prop where
  | checks {value : Option (BitVec 16)} (shows : hasBits (value.getD 0) phyBmsrLink = true) :
      ChecksLink recovery (.checkLink value) { recovery with
        driver := { recovery.driver with control := .wait }
        bmsr := value.getD 0
        checked := true }

/-- A check that finds the link bit is the only step whose end depends on what was
before. -/
theorem step_cases {options : InitPHY.Options} {action : RecoveryAction} (tracked : Tracked recovery)
    (taken : recovery.step options action = some next) :
    Tracked next ∧ (ChecksLink recovery action next ∨
      (Restored next ∧ ∀ value, action = .checkLink value →
        hasBits (value.getD 0) phyBmsrLink = false)) := by
  cases action with
  | driver action =>
    have other : ∀ outcome, action ≠ .thread outcome := by
      rintro outcome rfl
      cases taken
    have plain : ∃ driver, recovery.driver.step action = some driver ∧
        { recovery with driver := driver, checked := false } = next := by
      cases action with
      | thread outcome => exact absurd rfl (other outcome)
      | _ => exact Option.map_eq_some_iff.mp taken
    obtain ⟨driver, moved, rfl⟩ := plain
    refine ⟨driver_tracked tracked other (driver_moves moved), Or.inr ⟨?_, by rintro _ ⟨⟩⟩⟩
    exact unchecked_restored rfl
  | thread dmaOk received =>
    simp only [Recovery.step] at taken
    split at taken
    next inside =>
      split at taken
      next ok returned =>
        cases here : recovery.driver.control with
        | initPhy efBits =>
          refine ⟨started_tracked tracked here returned taken, Or.inr ⟨?_, by rintro _ ⟨⟩⟩⟩
          exact unchecked_restored (started_unchecked here taken)
        | recoverPhy =>
          obtain ⟨after, restored⟩ := recovered_tracked tracked here returned taken
          exact ⟨after, Or.inr ⟨restored, by rintro _ ⟨⟩⟩⟩
        | _ => simp [here, Control.inInitPhy] at inside
      next => cases taken
    next outside =>
      split at taken
      · cases taken
      next elsewhere =>
        refine ⟨stepThread_tracked tracked (by simpa using outside) elsewhere taken,
          Or.inr ⟨?_, by rintro _ ⟨⟩⟩⟩
        exact unchecked_restored (stepThread_unchecked taken)
  | checkLink value =>
    simp only [Recovery.step] at taken
    split at taken
    next here =>
      cases shows : hasBits (value.getD 0) phyBmsrLink with
      | true =>
        obtain ⟨after, rfl⟩ := linkStays_tracked tracked here shows taken
        exact ⟨after, Or.inl (.checks shows)⟩
      | false =>
        obtain ⟨after, unchecked⟩ := linkLost_tracked here shows taken
        refine ⟨after, Or.inr ⟨unchecked_restored unchecked, ?_⟩⟩
        rintro _ ⟨⟩
        exact shows
    next => cases taken
  | initPhy event =>
    simp only [Recovery.step] at taken
    split at taken
    next inside =>
      refine ⟨access_tracked tracked inside taken, Or.inr ⟨?_, by rintro _ ⟨⟩⟩⟩
      exact unchecked_restored (access_unchecked taken)
    next => cases taken

/-- A check of the link bit restores what it says, unless the recovery has failed. -/
theorem step_restored {options : InitPHY.Options} {action : RecoveryAction} (tracked : Tracked recovery)
    (admitted : ChecksRecovered recovery action)
    (taken : recovery.step options action = some next) : Restored next := by
  obtain ⟨after, checks | ⟨restored, -⟩⟩ := step_cases tracked taken
  · cases checks with
    | checks shows =>
      intro _ running goesOn _
      rcases after.kept running (by rintro ⟨⟩) with failed | set | known
      · have unfailed := admitted _ rfl running goesOn shows
        rw [unfailed] at failed
        cases failed
      · rw [goesOn] at set
        cases set
      · exact known
  · exact restored

/-- After a failed recovery a check that finds the link bit leaves the stack without
it. -/
theorem step_unrestored {options : InitPHY.Options} {action : RecoveryAction}
    (tracked : Tracked recovery) (refused : ¬ ChecksRecovered recovery action)
    (taken : recovery.step options action = some next) : ¬ Restored next := by
  intro restored
  apply refused
  rintro value rfl running goesOn shows
  by_contra failed
  obtain ⟨-, checks | ⟨-, unlinked⟩⟩ := step_cases tracked taken
  · cases checks with
    | checks =>
      have up := (restored rfl running goesOn shows).2
      have down := tracked.lowered (Or.inr ⟨by simpa using failed, running⟩)
      rw [down] at up
      cases up
  · rw [unlinked value rfl] at shows
    cases shows

end Steps

/-- For all options, histories of the link and answers of the PHY, `CheckLinkStatus`
restores what the link bit says throughout a run exactly when it never finds the bit
after `InitPHY` has failed to recover the link.

Proof: the invariant `Tracked` says what the driver, the call of `InitPHY` and the stack
know of the link. With it a step restores what the link bit says, unless it is the check
that finds the bit after a failed recovery; and that check does nothing, so it cannot. -/
theorem restored_iff {options : InitPHY.Options} {steps : List (Recovery × RecoveryAction)}
    {recovery : Recovery} (run : Runs.Run (Recovery.step options) Linked steps recovery) :
    Runs.Throughout (Recovery.step options) Linked (fun _ recovery => Restored recovery) steps ↔
      Runs.Meets ChecksRecovered steps := by
  refine Runs.throughout_iff (fun _ _ => True)
    (fun _ recovery => Tracked recovery ∧ Restored recovery) ?_ ?_ ?_ ?_ run (fun _ _ => trivial)
  · intro start linked
    exact ⟨linked_tracked linked, unchecked_restored linked.unchecked⟩
  · rintro earlier before action after ⟨tracked, -⟩ - admitted taken
    exact ⟨(step_cases tracked taken).1, step_restored tracked admitted taken⟩
  · exact fun _ _ both => both.2
  · rintro earlier before action after ⟨tracked, -⟩ - refused taken
    exact step_unrestored tracked refused taken

/-- A running device with a link; the next event of the timer starts a check. -/
def linkedRecovery : Recovery where
  driver := { idleDriver with
    tx := freshDriver.setLinkStatus true
    smapIsInitialized := true
    counter := 1 }
  call := ⟨.returned true, true, 8, 0x5e0, 0⟩
  notified := some .up
  bmsr := phyBmsrLink
  checked := false
  failed := false

/-- The running device with a link is one that a run can start from. -/
theorem linkedRecovery_linked : Linked linkedRecovery where
  waiting := ⟨⟨⟨_, true, rfl⟩, rfl, rfl, fun _ => rfl, rfl, rfl⟩, rfl⟩
  linked := fun _ => ⟨rfl, rfl⟩
  unchecked := rfl
  unfailed := rfl

/-- The timer event, the turn of the thread up to `CheckLinkStatus`, and its read of
BMSR. -/
def checkActions (bmsr : BitVec 16) : List RecoveryAction :=
  [.driver .linkCheckTimer] ++ List.replicate 10 (.thread true true) ++ [.checkLink (some bmsr)]

/-- The check is not one that finds the link bit after a failed recovery. -/
def checksRecovered (recovery : Recovery) : RecoveryAction → Bool
  | .checkLink value => !recovery.failed || !hasBits (value.getD 0) phyBmsrLink
  | _ => true

/-- The test on one step implies its condition. -/
theorem checksRecovered_of {recovery : Recovery} {action : RecoveryAction}
    (checked : checksRecovered recovery action = true) : ChecksRecovered recovery action := by
  rintro value rfl _ _ shows
  simp only [checksRecovered, shows, Bool.not_true, Bool.or_false] at checked
  simpa using checked

/-- The link is lost and found again, in fixed mode, and the next check finds it. -/
theorem restored_iff_found : ∃ steps recovery,
    Runs.Run (Recovery.step ⟨false, false, false⟩) Linked steps recovery ∧
    recovery.checked = true ∧
    Runs.Throughout (Recovery.step ⟨false, false, false⟩) Linked
      (fun _ recovery => Restored recovery) steps := by
  obtain ⟨steps, recovery, run, checked, admitted⟩ := Runs.run_of_performed
    (Recovery.step ⟨false, false, false⟩)
    (fun steps recovery => recovery.checked = true ∧
      ∀ entry ∈ steps, checksRecovered entry.1 entry.2 = true)
    linkedRecovery_linked
    (checkActions 0 ++ (InitPHY.fixedModeEvents (InitPHY.fixedBmcr 0x5e0) 0).map .initPhy ++
      [.thread true true] ++ checkActions phyBmsrLink) (by decide)
  exact ⟨steps, recovery, run, checked, (restored_iff run).mpr fun entry member =>
    checksRecovered_of (admitted entry member)⟩

/-- The link is lost, the reset of the PHY fails, and the next check finds the link. -/
theorem restored_fails : ∃ steps recovery,
    Runs.Run (Recovery.step ⟨false, false, false⟩) Linked steps recovery ∧
    ¬ Restored recovery := by
  obtain ⟨steps, recovery, run, ⟨checked, running⟩, ⟨goesOn, shows⟩, down⟩ := Runs.run_of_performed
    (Recovery.step ⟨false, false, false⟩)
    (fun _ recovery => (recovery.checked = true ∧ recovery.driver.smapIsInitialized = true) ∧
      (recovery.driver.netDevStopFlag = false ∧ hasBits recovery.bmsr phyBmsrLink = true) ∧
      recovery.driver.linkStatus = false)
    linkedRecovery_linked
    (checkActions 0 ++ [.initPhy (.write InitPHY.dsPhyterBmcr InitPHY.phyBmcrRst),
      .initPhy (.read InitPHY.dsPhyterBmcr (some InitPHY.phyBmcrRst)), .thread true true] ++
      checkActions phyBmsrLink) (by decide)
  refine ⟨steps, recovery, run, fun restored => ?_⟩
  have up := (restored checked running goesOn shows).1
  rw [down] at up
  cases up

end Ps2Eth.Smap
