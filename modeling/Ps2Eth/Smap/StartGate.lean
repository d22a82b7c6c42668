import Ps2Eth.Smap.SmapInit

/-!
# What the smap driver checks before it starts

`smap_init` is to return 0 only if its arguments were accepted and the adapter passed
every check, and to leave nothing behind otherwise. One of the checks is written
`!SPD_REG16(SPD_R_REV_3)&SPD_CAPS_SMAP`: the negation binds first, and the mask is put
on its 0 or 1. It refuses an adapter whose register is zero, if the capability is bit
0, and no other.
-/

namespace Ps2Eth.Smap.SmapInit

open CText (CString)

/-- What outlasts `smap_init` unless it is undone. -/
def Effect.lasts : Effect → Bool
  | .dev9RegisterIntrCb _ | .dev9RegisterPreDmaCb _ | .dev9RegisterPostDmaCb _
  | .createEventFlag _ | .createThread _ _ _ => true
  | _ => false

/-- The event flags there are after one more effect. -/
def holdEventFlags (held : List Int) : Effect → List Int
  | .createEventFlag result => if result < 0 then held else result :: held
  | .deleteEventFlag id => held.erase id
  | _ => held

/-- The threads there are after one more effect. -/
def holdThreads (held : List Int) : Effect → List Int
  | .createThread _ _ result => if result < 0 then held else result :: held
  | .deleteThread id => held.erase id
  | _ => held

/-- What must hold of the adapter besides the capability. -/
structure Checks (env : Environment) : Prop where
  revision : 0x11 ≤ env.rev1
  txFifo : ∃ poll < 10, env.txFifoReset poll = false
  rxFifo : ∃ poll < 10, env.rxFifoReset poll = false
  emac3 : ∃ poll < 10, env.emac3Reset poll = false
  eeprom : 0 ≤ env.getEeprom
  address : ¬ (env.eepromData.w0 = 0 ∧ env.eepromData.w1 = 0 ∧ env.eepromData.w2 = 0)
  checksum : env.eepromData.w0 + env.eepromData.w1 + env.eepromData.w2 = env.eepromData.w3

/-- What must hold besides the capability. -/
structure OtherGates (moduleNoResidentEnd : Int) (env : Environment) (argc : Int)
    (argv : List CString) (settings : Settings) : Prop extends Checks env where
  arguments : (parseArguments moduleNoResidentEnd argc settings argv).2 = none

/-- What must hold for the driver to start. -/
structure Gates (spdCapsSmap : BitVec 16) (moduleNoResidentEnd : Int) (env : Environment) (argc : Int)
    (argv : List CString) (settings : Settings) : Prop
    extends OtherGates moduleNoResidentEnd env argc argv settings where
  smap : env.rev3 &&& spdCapsSmap ≠ 0

/-- The driver starts through its gates only, and leaves nothing behind otherwise. -/
structure StartsSafely (spdCapsSmap : BitVec 16) (moduleNoResidentEnd : Int) (env : Environment)
    (argc : Int) (argv : List CString) (settings : Settings) : Prop where
  gated : (smapInit spdCapsSmap moduleNoResidentEnd env argc argv settings).result = 0 →
    Gates spdCapsSmap moduleNoResidentEnd env argc argv settings
  refused : ¬ Gates spdCapsSmap moduleNoResidentEnd env argc argv settings →
    (smapInit spdCapsSmap moduleNoResidentEnd env argc argv settings).result ≠ 0 ∧
      ∀ effect ∈ (smapInit spdCapsSmap moduleNoResidentEnd env argc argv settings).effects,
        effect.lasts = false
  undone : env.createEventFlag < 0 ∨ env.createThread < 0 →
    (smapInit spdCapsSmap moduleNoResidentEnd env argc argv settings).effects.foldl
        holdEventFlags [] = [] ∧
      (smapInit spdCapsSmap moduleNoResidentEnd env argc argv settings).effects.foldl
        holdThreads [] = []

/-- A reset is done when one of ten polls finds its bit gone. -/
theorem resetDone_iff (bit : Nat → Bool) : resetDone bit = true ↔ ∃ poll < 10, bit poll = false := by
  rw [resetDone, Polling.poll_stream]
  simp

/-- The check of the capability refuses a register that is zero, for bit 0. -/
theorem refusesCaps_iff {spdCapsSmap : BitVec 16} (single : ∃ bit < 16, spdCapsSmap = 1#16 <<< bit)
    (rev3 : BitVec 16) : refusesCaps spdCapsSmap rev3 = true ↔ rev3 = 0 ∧ spdCapsSmap = 1 := by
  obtain ⟨bit, small, rfl⟩ := single
  unfold refusesCaps
  by_cases zero : rev3 = 0
  · rw [if_pos zero]
    simp only [zero, true_and]
    revert bit
    decide
  · rw [if_neg zero]
    constructor
    · intro refused
      simp at refused
    · exact fun both => absurd both.1 zero

/-- What does not last holds nothing. -/
theorem held_of_fleeting {effects : List Effect} (fleeting : ∀ effect ∈ effects, effect.lasts = false) :
    effects.foldl holdEventFlags [] = [] ∧ effects.foldl holdThreads [] = [] := by
  induction effects with
  | nil => exact ⟨rfl, rfl⟩
  | cons effect rest inductionHypothesis =>
    have first := fleeting effect (List.mem_cons_self ..)
    have later := inductionHypothesis fun effect member => fleeting effect (List.mem_cons_of_mem _ member)
    have flags : holdEventFlags [] effect = [] := by
      cases effect <;> first | rfl | cases first
    have threads : holdThreads [] effect = [] := by
      cases effect <;> first | rfl | cases first
    rw [List.foldl_cons, List.foldl_cons, flags, threads]
    exact later

/-- Up to the EEPROM nothing is done that lasts. -/
theorem quiet_fleeting {effect : Effect} (member : effect ∈ quiet) : effect.lasts = false := by
  simp only [quiet, List.mem_cons, List.not_mem_nil, or_false] at member
  rcases member with rfl | rfl | rfl | rfl | rfl
  all_goals rfl

/-- `smap_init` returns an error, and nothing lasts. -/
def Refused (started : Int × List Effect) : Prop :=
  started.1 ≠ 0 ∧ ∀ effect ∈ started.2, effect.lasts = false

/-- An error returned before the adapter is set up leaves nothing that lasts, however far
it got. -/
theorem refused_quiet (result : Int) (count : Nat) (error : result ≠ 0) :
    Refused (result, quiet.take count) :=
  ⟨error, fun _ member => quiet_fleeting (List.mem_of_mem_take member)⟩

section BringUp

variable {spdCapsSmap : BitVec 16} {env : Environment}

/-- Where a check fails `smap_init` returns an error, and nothing lasts. -/
theorem bringUp_refused (settings : Settings)
    (fails : refusesCaps spdCapsSmap env.rev3 = false → ¬ Checks env) :
    Refused (bringUp spdCapsSmap env settings) := by
  have all := refused_quiet (-5) 5 (by decide)
  rw [bringUp]
  by_cases caps : refusesCaps spdCapsSmap env.rev3 = true
  · rw [if_pos caps]
    exact refused_quiet _ 0 (by decide)
  rw [if_neg caps]
  by_cases revision : env.rev1 < 0x11
  · rw [if_pos revision]
    exact refused_quiet _ 0 (by decide)
  rw [if_neg revision]
  by_cases txFifo : resetDone env.txFifoReset = true
  · by_cases rxFifo : resetDone env.rxFifoReset = true
    · by_cases emac3 : resetDone env.emac3Reset = true
      · rw [if_neg (by simp [txFifo]), if_neg (by simp [rxFifo]), if_neg (by simp [emac3])]
        by_cases eeprom : env.getEeprom < 0
        · rw [if_pos eeprom]
          split
          · exact refused_quiet _ 5 (by decide)
          · exact refused_quiet _ 5 (by decide)
        rw [if_neg eeprom]
        by_cases address : env.eepromData.w0 = 0 ∧ env.eepromData.w1 = 0 ∧ env.eepromData.w2 = 0
        · rw [if_pos address]
          exact all
        rw [if_neg address]
        by_cases checksum : checksum16 env.eepromData = env.eepromData.w3
        · refine absurd ?_ (fails (by simpa using caps))
          exact ⟨by simpa using revision, (resetDone_iff _).mp txFifo, (resetDone_iff _).mp rxFifo,
            (resetDone_iff _).mp emac3, by omega, address, checksum⟩
        · rw [if_pos checksum]
          exact all
      · rw [if_neg (by simp [txFifo]), if_neg (by simp [rxFifo]), if_pos (by simpa using emac3)]
        exact refused_quiet _ 4 (by decide)
    · rw [if_neg (by simp [txFifo]), if_pos (by simpa using rxFifo)]
      exact refused_quiet _ 3 (by decide)
  · rw [if_pos (by simpa using txFifo)]
    exact refused_quiet _ 2 (by decide)

/-- Where all checks pass the callbacks are registered, and `initialize` is called. -/
theorem bringUp_passed (settings : Settings) (caps : refusesCaps spdCapsSmap env.rev3 = false)
    (checks : Checks env) :
    bringUp spdCapsSmap env settings = ((initializeDriver env settings).1,
      quiet ++ setUpEmac3 env.eepromData ++ registerCallbacks ++ (initializeDriver env settings).2) := by
  obtain ⟨revision, txFifo, rxFifo, emac3, eeprom, address, checksum⟩ := checks
  have sum : checksum16 env.eepromData = env.eepromData.w3 := checksum
  rw [bringUp, if_neg (by simp [caps]), if_neg (by simpa using revision),
    if_neg (by simpa using (resetDone_iff _).mpr txFifo),
    if_neg (by simpa using (resetDone_iff _).mpr rxFifo),
    if_neg (by simpa using (resetDone_iff _).mpr emac3), if_neg (by omega), if_neg address,
    if_neg (not_not_intro sum)]

/-- Before `initialize` there is no event flag and no thread. -/
theorem held_before (data : EepromData) :
    (quiet ++ setUpEmac3 data ++ registerCallbacks).foldl holdEventFlags [] = [] ∧
      (quiet ++ setUpEmac3 data ++ registerCallbacks).foldl holdThreads [] = [] := ⟨rfl, rfl⟩

/-- When the event flag or the thread cannot be created, `initialize` leaves neither. -/
theorem initializeDriver_undone (settings : Settings)
    (fails : env.createEventFlag < 0 ∨ env.createThread < 0) :
    (initializeDriver env settings).2.foldl holdEventFlags [] = [] ∧
      (initializeDriver env settings).2.foldl holdThreads [] = [] := by
  rw [initializeDriver]
  by_cases flag : env.createEventFlag < 0
  · rw [if_pos flag]
    simp [holdEventFlags, holdThreads, flag]
  · have thread : env.createThread < 0 := fails.resolve_left flag
    rw [if_neg flag]
    simp [holdEventFlags, holdThreads, flag, thread]

end BringUp

/-- An argument was accepted, or ends `smap_init` with one of two results. -/
def Taken (moduleNoResidentEnd : Int) (parsed : Settings × Option Int) : Prop :=
  parsed.2 = none ∨ parsed.2 = some displayHelpMessage ∨ parsed.2 = some moduleNoResidentEnd

/-- A choice between two ways of taking an argument is such a way. -/
theorem Taken.ite {moduleNoResidentEnd : Int} {condition : Prop} [Decidable condition]
    {left right : Settings × Option Int} (first : Taken moduleNoResidentEnd left)
    (second : Taken moduleNoResidentEnd right) :
    Taken moduleNoResidentEnd (if condition then left else right) := by
  by_cases holds : condition
  · rwa [if_pos holds]
  · rwa [if_neg holds]

/-- Every argument is accepted, or ends `smap_init` with the help message or with
`MODULE_NO_RESIDENT_END`. -/
theorem parseArgument_taken (moduleNoResidentEnd : Int) (settings : Settings) (arg : CString) :
    Taken moduleNoResidentEnd (parseArgument moduleNoResidentEnd settings arg) := by
  have accepted (settings : Settings) : Taken moduleNoResidentEnd (settings, none) := Or.inl rfl
  have help (settings : Settings) : Taken moduleNoResidentEnd (settings, some displayHelpMessage) :=
    Or.inr (Or.inl rfl)
  have banner (settings : Settings) : Taken moduleNoResidentEnd (settings, some moduleNoResidentEnd) :=
    Or.inr (Or.inr rfl)
  unfold parseArgument
  repeat' apply Taken.ite
  all_goals first | exact accepted _ | exact help _ | exact banner _

section Arguments

variable {moduleNoResidentEnd : Int} (noResident : moduleNoResidentEnd ≠ 0)
include noResident

/-- An argument that ends `smap_init` makes it return an error. -/
theorem parseArgument_error (settings : Settings) (arg : CString) :
    (parseArgument moduleNoResidentEnd settings arg).2 ≠ some 0 := by
  intro zero
  rcases parseArgument_taken moduleNoResidentEnd settings arg with accepted | help | banner
  · rw [accepted] at zero
    cases zero
  · rw [help] at zero
    exact absurd (Option.some.inj zero) (by decide)
  · rw [banner] at zero
    exact noResident (Option.some.inj zero)

/-- So does the loop over the arguments. -/
theorem parseArguments_error (argc : Int) (settings : Settings) (argv : List CString) :
    (parseArguments moduleNoResidentEnd argc settings argv).2 ≠ some 0 := by
  induction argv generalizing argc settings with
  | nil =>
    rw [parseArguments]
    split
    · simp
    · simp [displayHelpMessage]
  | cons arg argv inductionHypothesis =>
    rw [parseArguments]
    split
    · cases parsed : (parseArgument moduleNoResidentEnd settings arg).2 with
      | none =>
        simp only [parsed]
        exact inductionHypothesis _ _
      | some result =>
        simp only [parsed]
        intro zero
        exact parseArgument_error noResident settings arg (parsed.trans zero)
    · split
      · simp
      · simp [displayHelpMessage]

end Arguments

section Start

variable {spdCapsSmap : BitVec 16} {moduleNoResidentEnd : Int} {env : Environment} {argc : Int}
  {argv : List CString} {settings : Settings}

/-- Where the arguments, the capability or a check refuse, `smap_init` returns an error
and nothing lasts. -/
theorem smapInit_refused (spdCapsSmap : BitVec 16) (noResident : moduleNoResidentEnd ≠ 0)
    (fails : refusesCaps spdCapsSmap env.rev3 = false →
      ¬ OtherGates moduleNoResidentEnd env argc argv settings) :
    Refused ((smapInit spdCapsSmap moduleNoResidentEnd env argc argv settings).result,
      (smapInit spdCapsSmap moduleNoResidentEnd env argc argv settings).effects) := by
  have error := parseArguments_error noResident argc settings argv
  unfold smapInit
  cases arguments : (parseArguments moduleNoResidentEnd argc settings argv).2 with
  | some result =>
    rw [arguments] at error
    simp only [arguments]
    exact ⟨fun zero => error (congrArg some zero), by simp⟩
  | none =>
    simp only [arguments]
    apply bringUp_refused
    intro caps checks
    exact fails caps ⟨checks, arguments⟩

/-- Where they let it pass it goes on to `initialize`. -/
theorem smapInit_passed (spdCapsSmap : BitVec 16)
    (caps : refusesCaps spdCapsSmap env.rev3 = false)
    (gates : OtherGates moduleNoResidentEnd env argc argv settings) :
    ∃ parsed, (smapInit spdCapsSmap moduleNoResidentEnd env argc argv settings).effects =
      quiet ++ setUpEmac3 env.eepromData ++ registerCallbacks ++
        (initializeDriver env parsed).2 := by
  refine ⟨(parseArguments moduleNoResidentEnd argc settings argv).1, ?_⟩
  unfold smapInit
  simp only [gates.arguments, bringUp_passed _ caps gates.toChecks]

/-- The driver starts safely exactly when, all else being in order, REV_3 has the
capability, or is zero where the capability is bit 0.

Proof: from left to right, a start without the capability would register its callbacks all
the same. From right to left, by whether all gates pass: then the driver is set up, and
what a failed start takes back is computed; otherwise one of the gates returns early,
before anything lasting was done. -/
theorem startsSafely_iff (single : ∃ bit < 16, spdCapsSmap = 1#16 <<< bit)
    (noResident : moduleNoResidentEnd ≠ 0) :
    StartsSafely spdCapsSmap moduleNoResidentEnd env argc argv settings ↔
      (OtherGates moduleNoResidentEnd env argc argv settings →
        env.rev3 &&& spdCapsSmap ≠ 0 ∨ (env.rev3 = 0 ∧ spdCapsSmap = 1)) := by
  constructor
  · intro safe gates
    by_contra missing
    obtain ⟨lacks, passes⟩ := not_or.mp missing
    have caps : refusesCaps spdCapsSmap env.rev3 = false := by
      rw [← Bool.not_eq_true, refusesCaps_iff single]
      exact passes
    obtain ⟨parsed, effects⟩ := smapInit_passed spdCapsSmap caps gates
    have fleeting := (safe.refused fun all => lacks all.smap).2 (.dev9RegisterIntrCb 2)
    rw [effects] at fleeting
    exact absurd (fleeting (by simp [registerCallbacks])) (by decide)
  · intro condition
    by_cases all : Gates spdCapsSmap moduleNoResidentEnd env argc argv settings
    · have caps : refusesCaps spdCapsSmap env.rev3 = false := by
        rw [← Bool.not_eq_true, refusesCaps_iff single]
        rintro ⟨zero, -⟩
        exact all.smap (by simp [zero])
      obtain ⟨parsed, effects⟩ := smapInit_passed spdCapsSmap caps all.toOtherGates
      refine ⟨fun _ => all, fun refused => absurd all refused, ?_⟩
      intro fails
      obtain ⟨flags, threads⟩ := held_before env.eepromData
      generalize quiet ++ setUpEmac3 env.eepromData ++ registerCallbacks = earlier at effects flags threads
      rw [effects, List.foldl_append, List.foldl_append, flags, threads]
      exact initializeDriver_undone parsed fails
    · have fails : refusesCaps spdCapsSmap env.rev3 = false →
          ¬ OtherGates moduleNoResidentEnd env argc argv settings := by
        intro caps gates
        rcases condition gates with has | ⟨zero, bit⟩
        · exact all ⟨gates, has⟩
        · rw [(refusesCaps_iff single _).mpr ⟨zero, bit⟩] at caps
          cases caps
      have refused := smapInit_refused spdCapsSmap noResident fails
      exact ⟨fun zero => absurd zero refused.1, fun _ => refused, fun _ => held_of_fleeting refused.2⟩

end Start

/-- An adapter with everything in order, whose REV_3 is given. -/
def adapter (rev3 : BitVec 16) : Environment where
  rev1 := 0x11
  rev3 := rev3
  txFifoReset := fun _ => false
  rxFifoReset := fun _ => false
  emac3Reset := fun _ => false
  getEeprom := 0
  eepromData := ⟨1, 2, 3, 6⟩
  createEventFlag := 1
  createThread := 2
  startThread := 0

/-- With the capability at bit 0, and set. -/
theorem startsSafely_capable : StartsSafely 1 1 (adapter 1) 0 [] loadedSettings :=
  (startsSafely_iff ⟨0, by decide, by decide⟩ (by decide)).mpr fun _ => Or.inl (by decide)

/-- With the capability at bit 0, an adapter that has another one only is started. -/
theorem startsSafely_fails : ¬ StartsSafely 1 1 (adapter 2) 0 [] loadedSettings := by
  intro safe
  have started : (smapInit 1 1 (adapter 2) 0 [] loadedSettings).result = 0 := by decide
  exact absurd (safe.gated started).smap (by decide)

end Ps2Eth.Smap.SmapInit
