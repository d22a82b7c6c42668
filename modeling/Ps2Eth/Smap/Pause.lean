import Ps2Eth.Smap.LinkMode

/-!
# Flow control in the modes that `InitPHY` records

Pause frames are for full duplex. Where the mode was negotiated, `InitPHY` of
`smap/smap.c` looks at the duplex before it enables flow control. Where it was not,
it takes the bit of the configuration alone.
-/

namespace Ps2Eth.Smap.InitPHY

/-- The mode register and `LinkMode` have flow control with full duplex only. -/
structure PausesFull (call : Call) : Prop where
  mode1 : hasBits call.mode1 (e3FlowctrlEnable ||| e3AllowPf) = true →
    hasBits call.mode1 e3FdxEnable = true
  linkMode : hasBits call.linkMode 0x40 = true → hasBits call.linkMode (0x08 ||| 0x02) = true

/-- BMCR reads neither auto-negotiation nor full duplex, and the configuration has the
bit for flow control. -/
structure PausesHalf (smapConfiguration : BitVec 32) (events : List Event) : Prop where
  fixed : hasBits (lastRead dsPhyterBmcr events) phyBmcrAnen = false
  half : hasBits (lastRead dsPhyterBmcr events) phyBmcrDupm = false
  flow : hasBits smapConfiguration 0x400 = true

/-- The abilities that are taken away are other bits. -/
theorem restrict_flow (smapConfiguration : BitVec 32) (bmsr : BitVec 16) :
    hasBits (restrict smapConfiguration bmsr) 0x400 = hasBits smapConfiguration 0x400 := by
  have kept : ∀ (seen : Bool) (configuration mask : BitVec 32), mask &&& 0x400 = 0x400 →
      hasBits (if seen then configuration else configuration &&& mask) 0x400 =
        hasBits configuration 0x400 := by
    intro seen configuration mask other
    cases seen with
    | true => rfl
    | false => simp only [hasBits, Bool.false_eq_true, if_false, BitVec.and_assoc, other]
  unfold restrict
  rw [kept _ _ _ (by decide), kept _ _ _ (by decide), kept _ _ _ (by decide), kept _ _ _ (by decide)]

/-- The writes that set up the chip leave the configuration. -/
theorem setUpChip_configuration (call : Call) (regDump : List (BitVec 16))
    (writes : List (PhyReg × BitVec 16)) :
    (call.setUpChip regDump writes).smapConfiguration = call.smapConfiguration := by
  cases writes <;> rfl

/-- So does the look at the chip's identifier. -/
theorem identify_configuration (options : Options) (call : Call) (regDump : List (BitVec 16)) :
    (call.identify options regDump).smapConfiguration = call.smapConfiguration := by
  unfold Call.identify
  split
  · split
    · rfl
    · exact setUpChip_configuration call regDump _
  · rfl

/-- Only after the read of the abilities a step touches the configuration. -/
theorem resume_keeps_configuration (options : Options) {call : Call} (value : BitVec 16)
    (stop : Bool) (other : call.pc ≠ .autoBmsr) :
    (call.resume options value stop).smapConfiguration = call.smapConfiguration := by
  cases here : call.pc with
  | autoBmsr => exact absurd here other
  | dump regDump =>
    simp only [Call.resume, here]
    split
    · rfl
    · exact identify_configuration options call _
  | errors regDump counts =>
    simp only [Call.resume, here]
    split
    · rfl
    · split
      · rfl
      · exact setUpChip_configuration call regDump _
  | chip regDump write rest =>
    simp only [Call.resume, here]
    exact setUpChip_configuration call regDump rest
  | _ =>
    simp only [Call.resume, here, Call.restartAuto, Call.forceFailed]
    repeat' split
    all_goals rfl

/-- A step leaves the configuration, or takes abilities from it. -/
theorem resume_configuration (options : Options) (call : Call) (value : BitVec 16) (stop : Bool) :
    (call.resume options value stop).smapConfiguration = call.smapConfiguration ∨
      (call.resume options value stop).smapConfiguration = restrict call.smapConfiguration value := by
  by_cases here : call.pc = .autoBmsr
  · right
    simp only [Call.resume, here]
  · left
    exact resume_keeps_configuration options value stop here

/-- The bit for flow control stays as it is configured. -/
theorem run_flow {options : Options} {smapConfiguration : BitVec 32} {steps : List (Call × Event)}
    {call : Call} (run : Runs.Run (Call.step options) (Called smapConfiguration) steps call) :
    hasBits call.smapConfiguration 0x400 = hasBits smapConfiguration 0x400 := by
  apply Runs.state_invariant
    (fun call : Call => hasBits call.smapConfiguration 0x400 = hasBits smapConfiguration 0x400) ?_ ?_ run
  · intro first called
    rw [called.smapConfiguration]
  · intro before event next configured taken
    obtain ⟨-, rfl⟩ := step_some taken
    rcases resume_configuration options before event.value event.stop with same | restricted
    · rw [same, configured]
    · rw [restricted, restrict_flow, configured]

/-- The value for the mode register has flow control exactly where it is enabled. -/
theorem mode1Of_flow (mode1 : BitVec 32) (full flow : Bool) :
    hasBits (mode1Of mode1 full flow) (e3FlowctrlEnable ||| e3AllowPf) = flow := by
  have cleared : hasBits (mode1 &&& 0x67ffffff) (e3FlowctrlEnable ||| e3AllowPf) = false := by
    have apart : (0x67ffffff : BitVec 32) &&& (e3FlowctrlEnable ||| e3AllowPf) = 0 := by decide
    rw [hasBits, BitVec.and_assoc, apart]
    simp
  unfold mode1Of
  rw [or_hasBits, or_hasBits, cleared]
  cases full <;> cases flow <;> decide

/-- So has `LinkMode`, and it has a full-duplex mode exactly where that was found. -/
theorem linkModeOf_bits (fast full flow : Bool) :
    hasBits (linkModeOf fast full flow) 0x40 = flow ∧
      hasBits (linkModeOf fast full flow) (0x08 ||| 0x02) = full := by
  cases fast <;> cases full <;> cases flow <;> decide

/-- Flow control is found without full duplex where BMCR has neither auto-negotiation
nor full duplex. -/
theorem negotiated_pauses (smapConfiguration : BitVec 32) (regDump : List (BitVec 16)) :
    ((negotiated smapConfiguration regDump).2.2 = true →
      (negotiated smapConfiguration regDump).2.1 = true) ↔
    ¬ (hasBits (dumped regDump dsPhyterBmcr) phyBmcrAnen = false ∧
      hasBits (dumped regDump dsPhyterBmcr) phyBmcrDupm = false ∧
      hasBits smapConfiguration 0x400 = true) := by
  cases enabled : hasBits (dumped regDump dsPhyterBmcr) phyBmcrAnen with
  | true =>
    simp only [negotiated, enabled, if_true, Bool.and_eq_true, Bool.true_eq_false, false_and,
      not_false_eq_true, iff_true]
    intro both
    exact both.1
  | false =>
    simp only [negotiated, enabled, Bool.false_eq_true, if_false, true_and]
    cases hasBits (dumped regDump dsPhyterBmcr) phyBmcrDupm with
    | true => simp
    | false => simp

/-- A call of `InitPHY` that returns 0 and never found `NetDevStopFlag` set has flow
control with full duplex only, except for a mode that was not negotiated and is not
full duplex while the configuration asks for flow control.

Proof: the mode that was recorded is a function of `RegDump`, so the question is when flow
control is asked for without full duplex. A negotiated mode never does so; a fixed one
takes the bit of the configuration as it is. -/
theorem pausesFull_iff {options : Options} {smapConfiguration : BitVec 32}
    {steps : List (Call × Event)} {call : Call}
    (run : Runs.Run (Call.step options) (Called smapConfiguration) steps call)
    (returned : call.pc = .returned true) (unstopped : Unstopped (history steps)) :
    PausesFull call ↔ ¬ PausesHalf smapConfiguration (history steps) := by
  obtain ⟨regDump, mode1, length, readBack, linkMode, mode1Is⟩ :=
    (run_dumped run).determined returned unstopped
  have bmcr : dumped regDump dsPhyterBmcr = lastRead dsPhyterBmcr (history steps) :=
    readBack _ (by rw [length]; decide)
  have found : PausesFull call ↔ ((negotiated call.smapConfiguration regDump).2.2 = true →
      (negotiated call.smapConfiguration regDump).2.1 = true) := by
    constructor
    · intro pauses
      have full := pauses.mode1
      rwa [mode1Is, mode1Of_flow, mode1Of_fdx] at full
    · intro full
      constructor
      · rwa [mode1Is, mode1Of_flow, mode1Of_fdx]
      · rwa [linkMode, (linkModeOf_bits _ _ _).1, (linkModeOf_bits _ _ _).2]
  rw [found, negotiated_pauses, bmcr, run_flow run]
  constructor
  · exact fun other half => other ⟨half.fixed, half.half, half.flow⟩
  · exact fun other half => other ⟨half.1, half.2.1, half.2.2⟩

/-- In fixed mode with all four technologies, flow control comes with full duplex. -/
theorem pausesFull_iff_fixed : ∃ steps call,
    Runs.Run (Call.step ⟨false, false, false⟩) (Called 0x5e0) steps call ∧
    (PausesFull call ↔ ¬ PausesHalf 0x5e0 (history steps)) := by
  obtain ⟨steps, call, run, returned, unstopped⟩ := Runs.run_of_performed
    (Call.step ⟨false, false, false⟩)
    (fun steps call => call.pc = .returned true ∧ .stopFlag true ∉ history steps)
    (⟨rfl, rfl⟩ : Called 0x5e0 ⟨.reset, false, 0, 0x5e0, 0⟩)
    (fixedModeEvents (fixedBmcr 0x5e0) 0) (by decide)
  exact ⟨steps, call, run, pausesFull_iff run returned unstopped⟩

/-- In fixed mode with 100 half alone and the bit for flow control, pauses are enabled
in half duplex. -/
theorem pausesFull_fails : ∃ steps call,
    Runs.Run (Call.step ⟨false, false, false⟩) (Called 0x480) steps call ∧
    call.pc = .returned true ∧ Unstopped (history steps) ∧ call.linkMode = 0x44 ∧
    ¬ PausesFull call := by
  obtain ⟨steps, call, run, returned, unstopped, linkMode⟩ := Runs.run_of_performed
    (Call.step ⟨false, false, false⟩)
    (fun steps call => call.pc = .returned true ∧ .stopFlag true ∉ history steps ∧
      call.linkMode = 0x44)
    (⟨rfl, rfl⟩ : Called 0x480 ⟨.reset, false, 0, 0x480, 0⟩)
    (fixedModeEvents (fixedBmcr 0x480) 0) (by decide)
  refine ⟨steps, call, run, returned, unstopped, linkMode, ?_⟩
  intro pauses
  have full := pauses.linkMode
  rw [linkMode] at full
  exact absurd (full (by decide)) (by decide)

end Ps2Eth.Smap.InitPHY
