import Ps2Eth.Smap.LinkRecovery

/-!
# The reset of the PHY in the smap driver

`InitPHY` of `smap/smap.c` starts by resetting the PHY and polls BMCR until the reset
bit is gone. The loop delays between two polls, as the waits of `smap_init` do, but its
counter goes up from zero while the test for giving up is `i<=0`: the first poll that
finds the bit set is the last, and `InitPHY` returns -1.

At the start of the device that ends `IntrHandlerThread`; in `CheckLinkStatus` it
leaves the link down.
-/

namespace Ps2Eth.Smap

open InitPHY (Call Called Event Options Pc history hasBits dsPhyterBmcr phyBmcrRst)

/-- BMCR was read with the reset bit set; a read that timed out counts as zero. -/
def inReset (value : Option (BitVec 16)) : Bool := hasBits (value.getD 0) phyBmcrRst

/-- The polls of the wait for the reset: reads of BMCR, up to the first without the
reset bit. -/
def resetPolls : List Event → List (Option (BitVec 16))
  | .read reg value :: rest =>
      if reg = dsPhyterBmcr then value :: (if inReset value then resetPolls rest else []) else []
  | _ => []

/-- The polls made by a call of `InitPHY` after it wrote the reset. -/
def pollsOf (events : List Event) : List (Option (BitVec 16)) := resetPolls events.tail

/-- A slow reset is no failure: -1 is for a PHY that two polls found in reset, and the
loop delays between polls. While fewer polls were made, all of them in reset, the call
goes on, and a poll without the reset bit takes it to the set-up of the link. -/
structure PatientReset (events : List Event) (call : Call) : Prop where
  patient : call.pc = .returned false → 2 ≤ (pollsOf events).countP inReset
  goesOn : events.length = 1 + (pollsOf events).length → (pollsOf events).all inReset = true →
    (pollsOf events).length < 2 → call.access.isSome = true
  setsUp : ∀ value, (pollsOf events).getLast? = some value → inReset value = false →
    call.pc.early = false

/-- How far a call has come: before the poll of BMCR, past it, or failed at it. -/
inductive ResetCourse : List Event → Pc → Prop where
  | called : ResetCourse [] .reset
  | written (data : BitVec 16) : ResetCourse [.write dsPhyterBmcr data] .resetRead
  | past {data : BitVec 16} {value : Option (BitVec 16)} {rest : List Event} {pc : Pc}
      (clear : inReset value = false) (later : pc.early = false) :
      ResetCourse (.write dsPhyterBmcr data :: .read dsPhyterBmcr value :: rest) pc
  | failed (data : BitVec 16) {value : Option (BitVec 16)} (set : inReset value = true) :
      ResetCourse [.write dsPhyterBmcr data, .read dsPhyterBmcr value] (.returned false)

/-- One access moves a call along its course.

Proof: by the course so far. The poll reads once: a set reset bit makes the loop give up
at its first test, and a clear bit leads past it. -/
theorem step_course {options : Options} {events : List Event} {call next : Call} {event : Event}
    (course : ResetCourse events call.pc) (taken : call.step options event = some next) :
    ResetCourse (events ++ [event]) next.pc := by
  obtain ⟨due, rfl⟩ := InitPHY.step_some taken
  generalize here : call.pc = pc at course
  cases course with
  | called =>
    simp only [Call.access, here] at due
    obtain rfl := InitPHY.write_due due
    simp only [Call.resume, here]
    exact ResetCourse.written _
  | written data =>
    simp only [Call.access, here] at due
    obtain ⟨value, rfl⟩ := InitPHY.read_due due
    simp only [Call.resume, here]
    cases set : hasBits (Event.read dsPhyterBmcr value).value phyBmcrRst with
    | true =>
      rw [if_pos rfl]
      exact ResetCourse.failed data set
    | false =>
      rw [if_neg (by decide)]
      apply ResetCourse.past set
      repeat' split
      all_goals rfl
  | past clear later =>
    apply ResetCourse.past clear
    cases early : (call.resume options event.value event.stop).pc.early with
    | false => rfl
    | true =>
      have before := (step_early taken early).1
      rw [here, later] at before
      cases before
  | failed => simp [Call.access, here] at due

/-- Every call follows its course. -/
theorem run_course {options : Options} {smapConfiguration : BitVec 32} {steps : List (Call × Event)}
    {call : Call} (run : Runs.Run (Call.step options) (Called smapConfiguration) steps call) :
    ResetCourse (history steps) call.pc := by
  refine Runs.run_invariant (fun steps call => ResetCourse (history steps) call.pc) ?_ ?_ run
  · intro first called
    rw [called.pc]
    exact ResetCourse.called
  · intro steps before event next course taken
    rw [InitPHY.history_snoc]
    exact step_course course taken

/-- Before the first poll there is nothing to be impatient with. -/
theorem patientReset_unpolled {events : List Event} {call : Call} (none : pollsOf events = [])
    (running : call.pc ≠ .returned false) (due : call.access.isSome = true) :
    PatientReset events call := by
  constructor
  · exact fun failed => absurd failed running
  · exact fun _ _ _ => due
  · rw [none]
    rintro value ⟨⟩

/-- A poll without the reset bit takes the call to the set-up of the link. -/
theorem patientReset_clear {events : List Event} {call : Call} {value : Option (BitVec 16)}
    (polls : pollsOf events = [value]) (clear : inReset value = false)
    (later : call.pc.early = false) : PatientReset events call := by
  constructor
  · intro failed
    rw [failed] at later
    cases later
  · intro _ set
    simp [polls, clear] at set
  · exact fun _ _ _ => later

/-- To fail at the first poll is impatient. -/
theorem impatient_once {events : List Event} {call : Call} {value : Option (BitVec 16)}
    (polls : pollsOf events = [value]) (failed : call.pc = .returned false) :
    ¬ PatientReset events call := by
  intro patient
  have twice := patient.patient failed
  rw [polls] at twice
  have once : [value].countP inReset ≤ 1 := List.countP_le_length
  omega

/-- A call of `InitPHY` is patient with the reset exactly when the first poll, if it
was made, does not find the reset bit set.

Proof: a call is before its first poll, past it, or has failed at it. The loop counts up
while it tests for zero, so in the last case it polled once and no more. -/
theorem patientReset_iff {options : Options} {smapConfiguration : BitVec 32}
    {steps : List (Call × Event)} {call : Call}
    (run : Runs.Run (Call.step options) (Called smapConfiguration) steps call) :
    PatientReset (history steps) call ↔
      ∀ value, (pollsOf (history steps)).head? = some value → inReset value = false := by
  have course := run_course run
  generalize history steps = events at course
  generalize here : call.pc = pc at course
  cases course with
  | called | written =>
    have due : call.access.isSome = true := by simp [Call.access, here]
    have running : call.pc ≠ .returned false := by simp [here]
    constructor
    · rintro - value ⟨⟩
    · exact fun _ => patientReset_unpolled rfl running due
  | @past data value rest pc clear later =>
    have polls : pollsOf (.write dsPhyterBmcr data :: .read dsPhyterBmcr value :: rest) = [value] := by
      simp [pollsOf, resetPolls, clear]
    rw [← here] at later
    constructor
    · intro _ first same
      rw [polls] at same
      rwa [← Option.some.inj same]
    · exact fun _ => patientReset_clear polls clear later
  | @failed data value set =>
    have polls : pollsOf [.write dsPhyterBmcr data, .read dsPhyterBmcr value] = [value] := by
      simp [pollsOf, resetPolls]
    constructor
    · exact fun patient => absurd patient (impatient_once polls here)
    · intro first
      rw [polls] at first
      rw [first value rfl] at set
      cases set

/-- A PHY that is out of reset at the first poll. -/
theorem patientReset_ready : ∃ steps call,
    Runs.Run (Call.step ⟨false, true, false⟩) (Called 0x5e0) steps call ∧ call.pc = .autoOff ∧
      PatientReset (history steps) call := by
  obtain ⟨steps, call, run, here, clear⟩ := Runs.run_of_performed (Call.step ⟨false, true, false⟩)
    (fun steps call => call.pc = .autoOff ∧ pollsOf (history steps) = [some 0])
    (⟨rfl, rfl⟩ : Called 0x5e0 ⟨.reset, false, 0, 0x5e0, 0⟩)
    [.write dsPhyterBmcr phyBmcrRst, .read dsPhyterBmcr (some 0)] (by decide)
  refine ⟨steps, call, run, here, (patientReset_iff run).mpr ?_⟩
  intro value first
  rw [clear] at first
  rw [← Option.some.inj first]
  decide

/-- A PHY that is still in reset at the first poll: `InitPHY` returns -1 at once. -/
theorem patientReset_fails : ∃ steps call,
    Runs.Run (Call.step ⟨false, true, false⟩) (Called 0x5e0) steps call ∧
      ¬ PatientReset (history steps) call := by
  obtain ⟨steps, call, run, here, set⟩ := Runs.run_of_performed (Call.step ⟨false, true, false⟩)
    (fun steps call => call.pc = .returned false ∧ pollsOf (history steps) = [some phyBmcrRst])
    (⟨rfl, rfl⟩ : Called 0x5e0 ⟨.reset, false, 0, 0x5e0, 0⟩)
    [.write dsPhyterBmcr phyBmcrRst, .read dsPhyterBmcr (some phyBmcrRst)] (by decide)
  exact ⟨steps, call, run, impatient_once set here⟩

/-- A call that returned -1 left `LinkStatus` as it found it. -/
theorem failed_linkStatus {options : Options} {smapConfiguration : BitVec 32} {linkStatus : Bool}
    {steps : List (Call × Event)} {call : Call}
    (run : Runs.Run (Call.step options)
      (fun call => Called smapConfiguration call ∧ call.linkStatus = linkStatus) steps call)
    (failed : call.pc = .returned false) : call.linkStatus = linkStatus := by
  have early : call.pc.early = true → call.linkStatus = linkStatus := by
    apply Runs.state_invariant
      (fun call : Call => call.pc.early = true → call.linkStatus = linkStatus) ?_ ?_ run
    · exact fun first called _ => called.2
    · intro before event next kept taken later
      obtain ⟨earlier, same, -⟩ := step_early taken later
      exact same.trans (kept earlier)
  exact early (by rw [failed]; rfl)

/-- At the start of the device -1 ends `IntrHandlerThread`. -/
theorem failed_start {driver : Driver} {efBits : EventFlag} {outcome : Outcome}
    (here : driver.control = .initPhy efBits) (failed : outcome.phy = .returns false) :
    driver.stepThread outcome = some { driver with control := .ended } := by
  simp only [Driver.stepThread, here, failed]

/-- A thread that has ended does nothing any more. -/
theorem ended_for_good {driver next : Driver} {action : DriverAction}
    (ended : driver.control = .ended) (taken : driver.step action = some next) :
    next.control = .ended := by
  cases action with
  | thread outcome => simp [Driver.step, Driver.stepThread, ended] at taken
  | raise | smapStopFlag =>
    cases taken
    exact ended
  | dev9IntrCb =>
    simp only [Driver.step] at taken
    split at taken
    · cases taken
    · obtain ⟨_, -, rfl⟩ := Driver.lift_some taken
      exact ended
  | output | tcpip | complete | linkCheckTimer | smapStart | smapStop =>
    obtain ⟨_, -, rfl⟩ := Driver.lift_some taken
    exact ended

end Ps2Eth.Smap
