import Ps2Eth.Smap.LinkWitness

/-!
# The speed and duplex that `InitPHY` records

At its end `InitPHY` tests speed and duplex on their own: 100 Mbit/s if the set of
abilities has a technology of that speed, full duplex if it has one of that
duplex. For a set with 100 half and 10 full and without 100 full this gives 100
full, which neither side offered. Fixed mode tests the configuration in the same
way.
-/

namespace Ps2Eth.Smap.InitPHY

/-- What the last read of a register returned. -/
def lastRead (reg : PhyReg) (events : List Event) : BitVec 16 :=
  events.foldl (fun last event => match event with
    | .read tested value => if tested = reg then value.getD 0 else last
    | _ => last) 0

/-- What was last written to a register. -/
def lastWritten (reg : PhyReg) (events : List Event) : Option (BitVec 16) :=
  events.foldl (fun last event => match event with
    | .write tested data => if tested = reg then some data else last
    | _ => last) none

/-- What two link partners can agree on. -/
inductive Technology where
  | full100
  | half100
  | full10
  | half10
deriving DecidableEq

namespace Technology

/-- The technologies with 100 Mbit/s. -/
def fast : Technology → Bool
  | .full100 | .half100 => true
  | _ => false

/-- The technologies with full duplex. -/
def full : Technology → Bool
  | .full100 | .full10 => true
  | _ => false

/-- The bit of `LinkMode` for the technology. -/
def code : Technology → BitVec 8
  | .full100 => 8
  | .half100 => 4
  | .full10 => 2
  | .half10 => 1

end Technology

/-- The technology of highest priority in a set of abilities. -/
def best {width : Nat} (set : BitVec width) : Option Technology :=
  if hasBits set 0x100 then some .full100
  else if hasBits set 0x080 then some .half100
  else if hasBits set 0x040 then some .full10
  else if hasBits set 0x020 then some .half10
  else none

/-- The set has the speed of one technology and the duplex of another, but not
the technology that has both. -/
def Mixed {width : Nat} (set : BitVec width) : Prop :=
  hasBits set 0x080 = true ∧ hasBits set 0x040 = true ∧ hasBits set 0x100 = false

/-- `LinkMode` and the mode register say the same technology. -/
structure Records (call : Call) (technology : Technology) : Prop where
  linkMode : call.linkMode &&& 0x0f = technology.code
  mode1 : hasBits call.mode1 e3FdxEnable = technology.full

/-- The abilities that both sides advertise. -/
def common (events : List Event) : BitVec 16 :=
  lastRead dsPhyterAnar events &&& lastRead dsPhyterAnlpar events

/-- With auto-negotiation on, `InitPHY` records the best technology of the common
abilities, if there are any; in fixed mode the best one of the configuration, if
it names any and BMCR reads back as written. -/
structure RecordsBest (options : Options) (smapConfiguration : BitVec 32) (events : List Event)
    (call : Call) : Prop where
  negotiated : hasBits (lastRead dsPhyterBmcr events) phyBmcrAnen = true →
    ∀ technology, best (common events) = some technology → Records call technology
  fixed : options.enableAutoNegotiation = false →
    lastWritten dsPhyterBmcr events = some (lastRead dsPhyterBmcr events) →
    ∀ technology, best smapConfiguration = some technology → Records call technology

/-- The sets that are looked at are not mixed. -/
structure Unmixed (options : Options) (smapConfiguration : BitVec 32) (events : List Event) :
    Prop where
  negotiated : hasBits (lastRead dsPhyterBmcr events) phyBmcrAnen = true → ¬ Mixed (common events)
  fixed : options.enableAutoNegotiation = false →
    lastWritten dsPhyterBmcr events = some (lastRead dsPhyterBmcr events) →
    ¬ Mixed smapConfiguration

/-- A read that timed out counts as a read of zero; events other than reads of the
register leave the last one. -/
theorem lastRead_snoc (reg : PhyReg) (events : List Event) (event : Event) :
    lastRead reg (events ++ [event]) = match event with
      | .read tested value => if tested = reg then value.getD 0 else lastRead reg events
      | _ => lastRead reg events := by
  simp only [lastRead, List.foldl_append, List.foldl_cons, List.foldl_nil]

/-- Only a write of the register replaces what was written last. -/
theorem lastWritten_snoc (reg : PhyReg) (events : List Event) (event : Event) :
    lastWritten reg (events ++ [event]) = match event with
      | .write tested data => if tested = reg then some data else lastWritten reg events
      | _ => lastWritten reg events := by
  simp only [lastWritten, List.foldl_append, List.foldl_cons, List.foldl_nil]

section Bits

variable {width : Nat}

/-- A value has some bit of two masks when it has one of either. -/
theorem hasBits_or (value left right : BitVec width) :
    hasBits value (left ||| right) = (hasBits value left || hasBits value right) := by
  have whole : value &&& (left ||| right) = (value &&& left) ||| (value &&& right) := by
    ext position inside
    simp [Bool.and_or_distrib_left]
  have empty : (value &&& left) ||| (value &&& right) = 0 ↔
      value &&& left = 0 ∧ value &&& right = 0 := BitVec.or_eq_zero_iff
  simp only [hasBits, whole]
  rw [Bool.eq_iff_iff, Bool.or_eq_true, bne_iff_ne, bne_iff_ne, bne_iff_ne, ne_eq, empty]
  tauto

/-- Two values have some bit of a mask when either has. -/
theorem or_hasBits (left right mask : BitVec width) :
    hasBits (left ||| right) mask = (hasBits left mask || hasBits right mask) := by
  simp only [hasBits, BitVec.and_comm _ mask]
  exact hasBits_or mask left right

/-- The two tests give the best technology exactly for a set that is not mixed. -/
theorem tests_best {set : BitVec width} {technology : Technology}
    (speeds : (0x180 : BitVec width) = 0x100 ||| 0x080)
    (duplexes : (0x140 : BitVec width) = 0x100 ||| 0x040) (isBest : best set = some technology) :
    (hasBits set 0x180 = technology.fast ∧ hasBits set 0x140 = technology.full) ↔ ¬ Mixed set := by
  rw [speeds, duplexes, hasBits_or, hasBits_or]
  unfold best at isBest
  unfold Mixed
  cases full100 : hasBits set 0x100 <;> cases half100 : hasBits set 0x080 <;>
    cases full10 : hasBits set 0x040 <;> cases half10 : hasBits set 0x020 <;>
    simp_all [Technology.fast, Technology.full] <;> subst isBest <;> simp

end Bits

/-- `LinkMode` has the bit of the technology with that speed and duplex. -/
theorem linkModeOf_code (fast full flow : Bool) (technology : Technology) :
    linkModeOf fast full flow &&& 0x0f = technology.code ↔
      fast = technology.fast ∧ full = technology.full := by
  cases technology <;> cases fast <;> cases full <;> cases flow <;> decide

/-- The duplex bit of the mode is the duplex decided on, whatever the register held. -/
theorem mode1Of_fdx (mode1 : BitVec 32) (full flow : Bool) :
    hasBits (mode1Of mode1 full flow) e3FdxEnable = full := by
  have cleared : hasBits (mode1 &&& 0x67ffffff) e3FdxEnable = false := by
    have apart : (0x67ffffff : BitVec 32) &&& e3FdxEnable = 0 := by decide
    rw [hasBits, BitVec.and_assoc, apart]
    simp
  unfold mode1Of
  rw [or_hasBits, or_hasBits, cleared]
  cases full <;> cases flow <;> decide

/-- Fixed mode writes the two tests of the configuration to BMCR. -/
theorem fixedBmcr_bits (smapConfiguration : BitVec 32) :
    hasBits (fixedBmcr smapConfiguration) phyBmcrAnen = false ∧
    hasBits (fixedBmcr smapConfiguration) phyBmcr100m = hasBits smapConfiguration 0x180 ∧
    hasBits (fixedBmcr smapConfiguration) phyBmcrDupm = hasBits smapConfiguration 0x140 := by
  unfold fixedBmcr
  cases hasBits smapConfiguration 0x180 <;> cases hasBits smapConfiguration 0x140 <;> decide

/-- The part of `RegDump` that a place holds. -/
def Pc.regDump : Pc → Option (List (BitVec 16))
  | .dump regDump | .errors regDump _ | .chip regDump _ _ | .finish regDump => some regDump
  | _ => none

/-- The place has the whole of `RegDump`. -/
def Pc.whole : Pc → Bool
  | .errors _ _ | .chip _ _ _ | .finish _ => true
  | _ => false

/-- `RegDump` holds what was last read of its registers. -/
def ReadBack (events : List Event) (regDump : List (BitVec 16)) : Prop :=
  ∀ reg < regDump.length, dumped regDump reg = lastRead reg events

/-- `LinkMode` and the mode register were set from `RegDump`. -/
def Determined (events : List Event) (call : Call) : Prop :=
  ∃ regDump mode1, regDump.length = 6 ∧ ReadBack events regDump ∧
    call.linkMode = linkModeOf (negotiated call.smapConfiguration regDump).1
      (negotiated call.smapConfiguration regDump).2.1 (negotiated call.smapConfiguration regDump).2.2 ∧
    call.mode1 = mode1Of mode1 (negotiated call.smapConfiguration regDump).2.1
      (negotiated call.smapConfiguration regDump).2.2

/-- `RegDump` in an unstopped call. -/
structure Dumped (events : List Event) (call : Call) : Prop where
  readBack : ∀ regDump, call.pc.regDump = some regDump → ReadBack events regDump
  short : ∀ regDump, call.pc = .dump regDump → regDump.length < 6
  whole : call.pc.whole = true → ∀ regDump, call.pc.regDump = some regDump → regDump.length = 6
  determined : call.pc = .returned true → Unstopped events → Determined events call

/-- Reading the next register extends what is read back. -/
theorem ReadBack.dump {events : List Event} {regDump : List (BitVec 16)}
    (readBack : ReadBack events regDump) (value : Option (BitVec 16)) :
    ReadBack (events ++ [.read regDump.length value]) (regDump ++ [value.getD 0]) := by
  intro reg inside
  rw [lastRead_snoc]
  simp only [List.length_append, List.length_singleton] at inside
  by_cases here : regDump.length = reg
  · subst here
    simp [dumped]
  · have earlier : reg < regDump.length := by omega
    simp only [if_neg here, ← readBack reg earlier]
    simp [dumped, List.getElem?_append, earlier]

/-- Other accesses leave what is read back. -/
theorem ReadBack.snoc {events : List Event} {event : Event} {regDump : List (BitVec 16)}
    (readBack : ReadBack events regDump)
    (other : ∀ reg value, event = .read reg value → regDump.length ≤ reg) :
    ReadBack (events ++ [event]) regDump := by
  intro reg inside
  rw [lastRead_snoc, readBack reg inside]
  cases event with
  | read tested value =>
    have apart : tested ≠ reg := by
      rintro rfl
      exact absurd inside (Nat.not_lt.mpr (other tested value rfl))
    exact (if_neg apart).symm
  | write | stopFlag | mode1 => rfl

/-- A call that still holds its whole dump answers for it. -/
theorem dumped_of_whole {events : List Event} {regDump : List (BitVec 16)} {call : Call}
    (holds : call.pc.regDump = some regDump) (whole : call.pc.whole = true)
    (readBack : ReadBack events regDump) (length : regDump.length = 6) : Dumped events call := by
  refine ⟨?_, ?_, ?_, ?_⟩
  · intro other same
    rw [holds] at same
    cases same
    exact readBack
  · intro other here
    rw [here] at whole
    cases whole
  · intro _ other same
    rw [holds] at same
    cases same
    exact length
  · intro here
    rw [here] at whole
    cases whole

/-- Where no dump is held any more, nothing is left to show unless the call was stopped. -/
theorem dumped_of_none {events : List Event} {call : Call} (none : call.pc.regDump = .none)
    (goesOn : call.pc = .returned true → ¬ Unstopped events) : Dumped events call := by
  refine ⟨?_, ?_, ?_, fun here unstopped => absurd unstopped (goesOn here)⟩
  · intro regDump here
    rw [none] at here
    cases here
  · intro regDump here
    rw [here] at none
    cases none
  · intro _ regDump here
    rw [none] at here
    cases here

/-- The writes that set up the chip leave the dump. -/
theorem setUpChip_dumped {events : List Event} {regDump : List (BitVec 16)} (call : Call)
    (writes : List (PhyReg × BitVec 16)) (readBack : ReadBack events regDump)
    (length : regDump.length = 6) : Dumped events (call.setUpChip regDump writes) := by
  cases writes <;> exact dumped_of_whole rfl rfl readBack length

/-- So does the look at the chip's identifier. -/
theorem identify_dumped {events : List Event} {regDump : List (BitVec 16)} (options : Options)
    (call : Call) (readBack : ReadBack events regDump) (length : regDump.length = 6) :
    Dumped events (call.identify options regDump) := by
  unfold Call.identify
  split
  · split
    · exact dumped_of_whole rfl rfl readBack length
    · exact setUpChip_dumped call _ readBack length
  · exact dumped_of_whole rfl rfl readBack length

/-- An unsettled place has nothing of `RegDump`. -/
theorem regDump_of_unsettled {pc : Pc} (early : pc.settled = false) : pc.regDump = none := by
  cases pc <;> first | rfl | simp [Pc.settled] at early

/-- Accesses that read none of the registers in it leave a whole `RegDump`. -/
theorem whole_dumped {events : List Event} {event : Event} {regDump : List (BitVec 16)} {call : Call}
    (dump : Dumped events call) (holds : call.pc.regDump = some regDump)
    (whole : call.pc.whole = true) (other : ∀ reg value, event = .read reg value → 6 ≤ reg) :
    ReadBack (events ++ [event]) regDump ∧ regDump.length = 6 := by
  have length := dump.whole whole regDump holds
  refine ⟨(dump.readBack regDump holds).snoc ?_, length⟩
  rw [length]
  exact other

/-- Every step keeps the dump true to the reads made.

Proof: by the places of `InitPHY` behind the link, which are all there is to look at. At
`dump` the register that was read goes to the end of the dump; the later places leave the
dump as it is, and read none of the registers in it. -/
theorem step_dumped {options : Options} {events : List Event} {call next : Call} {event : Event}
    (quietChip : call.pc.QuietChip) (dump : Dumped events call)
    (taken : call.step options event = some next) : Dumped (events ++ [event]) next := by
  cases settled : next.pc.settled with
  | false =>
    apply dumped_of_none (regDump_of_unsettled settled)
    intro here
    rw [here] at settled
    cases settled
  | true =>
    cases step_settles quietChip taken settled with
    | linked shows goesOn =>
      subst goesOn
      refine ⟨?_, ?_, ?_, ?_⟩
      · rintro regDump same reg inside
        cases same
        cases inside
      · rintro regDump same
        cases same
        decide
      · intro whole
        cases whole
      · intro here
        cases here
    | stopped stop goesOn =>
      subst stop goesOn
      apply dumped_of_none rfl
      intro _ unstopped
      exact unstopped (List.mem_append_right _ List.mem_cons_self)
    | stays before =>
      obtain ⟨due, rfl⟩ := step_some taken
      cases here : call.pc with
      | dump regDump =>
        have readBack := dump.readBack regDump (by rw [here]; rfl)
        have short := dump.short regDump here
        obtain ⟨value, rfl⟩ := read_due (by simpa only [Call.access, here] using due)
        have more := readBack.dump value
        simp only [Call.resume, here, List.length_append, List.length_singleton]
        split
        next room =>
          refine ⟨?_, ?_, ?_, ?_⟩
          · rintro other same
            cases same
            exact more
          · rintro other same
            cases same
            simpa using room
          · intro whole
            cases whole
          · intro here
            cases here
        next full =>
          apply identify_dumped options call more
          simp only [List.length_append, List.length_singleton]
          omega
      | errors regDump counts =>
        have other : ∀ reg value, event = .read reg value → 6 ≤ reg := by
          rintro reg value rfl
          simp only [Call.access, here, Event.access, Option.some.injEq, Access.read.injEq] at due
          split at due <;> subst due <;> decide
        obtain ⟨readBack, length⟩ := whole_dumped dump (by rw [here]; rfl) (by rw [here]; rfl) other
        simp only [Call.resume, here] at settled ⊢
        split
        · exact dumped_of_whole rfl rfl readBack length
        · split
          · exact dumped_of_none rfl fun returned => by cases returned
          · exact setUpChip_dumped call _ readBack length
      | chip regDump write rest =>
        have other : ∀ reg value, event = .read reg value → 6 ≤ reg := by
          rintro reg value rfl
          simp [Call.access, here, Event.access] at due
        obtain ⟨readBack, length⟩ := whole_dumped dump (by rw [here]; rfl) (by rw [here]; rfl) other
        simp only [Call.resume, here]
        exact setUpChip_dumped call _ readBack length
      | finish regDump =>
        have other : ∀ reg value, event = .read reg value → 6 ≤ reg := by
          rintro reg value rfl
          simp [Call.access, here, Event.access] at due
        obtain ⟨readBack, length⟩ := whole_dumped dump (by rw [here]; rfl) (by rw [here]; rfl) other
        simp only [Call.resume, here]
        refine ⟨?_, ?_, ?_, ?_⟩
        · rintro other same
          cases same
        · rintro other same
          cases same
        · intro whole
          cases whole
        · intro _ _
          exact ⟨regDump, call.mode1, length, readBack, rfl, rfl⟩
      | late => simp [Call.resume, here, Call.goto, Pc.settled] at settled
      | returned ok => simp [Call.access, here] at due
      | _ => simp [here, Pc.settled] at before

/-- In every state reached the dump is true to the reads made. -/
theorem run_dumped {options : Options} {smapConfiguration : BitVec 32}
    {steps : List (Call × Event)} {call : Call}
    (run : Runs.Run (Call.step options) (Called smapConfiguration) steps call) :
    Dumped (history steps) call := by
  induction run with
  | start called =>
    apply dumped_of_none
    · rw [called.pc]
      rfl
    · intro here
      rw [called.pc] at here
      cases here
  | snoc before taken inductionHypothesis =>
    rw [history_snoc]
    exact step_dumped (run_witnessed before).quietChip inductionHypothesis taken

/-- The places that fixed mode comes to, and among them those behind its write to
BMCR. -/
def Pc.ofFixed : Pc → Bool
  | .reset | .resetRead | .fixed | .waitStop _ | .waitRead _ | .dump _ | .chip _ _ _ | .finish _
  | .returned _ => true
  | _ => false

/-- Where the call stands behind the writes that fix the mode. -/
def Pc.programmed : Pc → Bool
  | .reset | .resetRead | .fixed | .returned false => false
  | _ => true

/-- A call in fixed mode keeps the configuration and writes BMCR once after the
reset. -/
structure InFixedMode (smapConfiguration : BitVec 32) (events : List Event) (call : Call) : Prop where
  place : call.pc.ofFixed = true
  configuration : call.smapConfiguration = smapConfiguration
  written : call.pc.programmed = true →
    lastWritten dsPhyterBmcr events = some (fixedBmcr smapConfiguration)

/-- A step that stays in fixed mode and does not write BMCR. -/
theorem InFixedMode.step {smapConfiguration : BitVec 32} {events : List Event} {event : Event}
    {call next : Call} (fixedMode : InFixedMode smapConfiguration events call)
    (place : next.pc.ofFixed = true) (same : next.smapConfiguration = call.smapConfiguration)
    (quiet : event.writesBmcr = false)
    (programmed : next.pc.programmed = true → call.pc.programmed = true) :
    InFixedMode smapConfiguration (events ++ [event]) next := by
  refine ⟨place, same.trans fixedMode.configuration, ?_⟩
  intro behind
  rw [lastWritten_snoc, ← fixedMode.written (programmed behind)]
  cases event with
  | write reg data =>
    have other : reg ≠ dsPhyterBmcr := by simpa [Event.writesBmcr] using quiet
    exact if_neg other
  | read | stopFlag | mode1 => rfl

/-- The writes that set up the chip lead on within fixed mode and leave the configuration. -/
theorem setUpChip_fixed (call : Call) (regDump : List (BitVec 16))
    (writes : List (PhyReg × BitVec 16)) :
    (call.setUpChip regDump writes).pc.ofFixed = true ∧
      (call.setUpChip regDump writes).smapConfiguration = call.smapConfiguration := by
  cases writes <;> exact ⟨rfl, rfl⟩

/-- With negotiation disabled the look at the identifier leads into fixed mode. -/
theorem identify_fixed {options : Options} (fixed : options.enableAutoNegotiation = false)
    (call : Call) (regDump : List (BitVec 16)) :
    (call.identify options regDump).pc.ofFixed = true ∧
      (call.identify options regDump).smapConfiguration = call.smapConfiguration := by
  unfold Call.identify
  split
  · rw [fixed]
    exact setUpChip_fixed call regDump _
  · exact ⟨rfl, rfl⟩

/-- An access that is not a write does not write BMCR. -/
theorem quiet_of_due {access : Access} {event : Event} (due : some access = some event.access)
    (other : ∀ reg data, access ≠ .write reg data) : event.writesBmcr = false := by
  cases event with
  | write reg data => exact absurd (Option.some.inj due) (other reg data)
  | read | stopFlag | mode1 => rfl

/-- With negotiation disabled every step stays in fixed mode.

Proof: by the places of `InitPHY` that a fixed mode comes to. BMCR is written at one of
them, with the value for the configuration, and none of the places behind it writes it
again. -/
theorem step_inFixedMode {options : Options} (fixed : options.enableAutoNegotiation = false)
    {smapConfiguration : BitVec 32} {events : List Event} {call next : Call} {event : Event}
    (quietChip : call.pc.QuietChip) (fixedMode : InFixedMode smapConfiguration events call)
    (taken : call.step options event = some next) :
    InFixedMode smapConfiguration (events ++ [event]) next := by
  obtain ⟨due, rfl⟩ := step_some taken
  have place := fixedMode.place
  cases here : call.pc with
  | reset =>
    refine ⟨?_, ?_, ?_⟩ <;> simp only [Call.resume, here]
    · rfl
    · exact fixedMode.configuration
    · intro behind
      cases behind
  | resetRead =>
    simp only [Call.resume, here]
    split
    · refine ⟨rfl, fixedMode.configuration, ?_⟩
      intro behind
      cases behind
    · rw [fixed]
      refine ⟨rfl, fixedMode.configuration, ?_⟩
      intro behind
      cases behind
  | fixed =>
    simp only [Call.access, here] at due
    obtain rfl := write_due due
    simp only [Call.resume, here]
    refine ⟨rfl, fixedMode.configuration, ?_⟩
    intro _
    rw [lastWritten_snoc, fixedMode.configuration]
    exact if_pos rfl
  | waitStop i =>
    simp only [Call.access, here] at due
    have quiet := quiet_of_due due (by rintro reg data ⟨⟩)
    have behind : call.pc.programmed = true := by rw [here]; rfl
    simp only [Call.resume, here]
    split
    · exact fixedMode.step rfl rfl quiet fun _ => behind
    · exact fixedMode.step rfl rfl quiet fun _ => behind
  | waitRead i =>
    simp only [Call.access, here] at due
    have quiet := quiet_of_due due (by rintro reg data ⟨⟩)
    have behind : call.pc.programmed = true := by rw [here]; rfl
    simp only [Call.resume, here]
    split
    · exact fixedMode.step rfl rfl quiet fun _ => behind
    · split
      · exact fixedMode.step rfl rfl quiet fun _ => behind
      · exact fixedMode.step rfl rfl quiet fun _ => behind
  | dump regDump =>
    simp only [Call.access, here] at due
    have quiet := quiet_of_due due (by rintro reg data ⟨⟩)
    have behind : call.pc.programmed = true := by rw [here]; rfl
    simp only [Call.resume, here]
    split
    · exact fixedMode.step rfl rfl quiet fun _ => behind
    · obtain ⟨inside, same⟩ := identify_fixed fixed call (regDump ++ [event.value])
      exact fixedMode.step inside same quiet fun _ => behind
  | chip regDump write rest =>
    have behind : call.pc.programmed = true := by rw [here]; rfl
    simp only [Call.access, here] at due
    obtain rfl := write_due due
    rw [here] at quietChip
    have quiet : (Event.write write.1 write.2).writesBmcr = false := by
      simpa [Event.writesBmcr] using quietChip write List.mem_cons_self
    simp only [Call.resume, here]
    obtain ⟨inside, same⟩ := setUpChip_fixed call regDump rest
    exact fixedMode.step inside same quiet fun _ => behind
  | finish regDump =>
    simp only [Call.access, here] at due
    have quiet := quiet_of_due due (by rintro reg data ⟨⟩)
    have behind : call.pc.programmed = true := by rw [here]; rfl
    simp only [Call.resume, here]
    exact fixedMode.step rfl rfl quiet fun _ => behind
  | returned ok => simp [Call.access, here] at due
  | _ => simp [here, Pc.ofFixed] at place

/-- With negotiation disabled every state reached is one of fixed mode. -/
theorem run_inFixedMode {options : Options} (fixed : options.enableAutoNegotiation = false)
    {smapConfiguration : BitVec 32} {steps : List (Call × Event)} {call : Call}
    (run : Runs.Run (Call.step options) (Called smapConfiguration) steps call) :
    InFixedMode smapConfiguration (history steps) call := by
  induction run with
  | start called =>
    refine ⟨?_, called.smapConfiguration, ?_⟩
    · rw [called.pc]
      rfl
    · intro behind
      rw [called.pc] at behind
      cases behind
  | snoc before taken inductionHypothesis =>
    rw [history_snoc]
    exact step_inFixedMode fixed (run_witnessed before).quietChip inductionHypothesis taken

/-- What `InitPHY` records says a technology exactly when its two tests do. -/
theorem Determined.records {events : List Event} {call : Call} (determined : Determined events call) :
    ∃ regDump, regDump.length = 6 ∧ ReadBack events regDump ∧ ∀ technology,
      Records call technology ↔
        (negotiated call.smapConfiguration regDump).1 = technology.fast ∧
        (negotiated call.smapConfiguration regDump).2.1 = technology.full := by
  obtain ⟨regDump, mode1, length, readBack, linkMode, fdx⟩ := determined
  refine ⟨regDump, length, readBack, fun technology => ?_⟩
  constructor
  · intro records
    have code := records.linkMode
    rw [linkMode] at code
    exact (linkModeOf_code _ _ _ technology).mp code
  · rintro ⟨fast, full⟩
    constructor
    · rw [linkMode]
      exact (linkModeOf_code _ _ _ technology).mpr ⟨fast, full⟩
    · rw [fdx, mode1Of_fdx]
      exact full

/-- A mixed set has a best technology. -/
theorem Mixed.best {width : Nat} {set : BitVec width} (mixed : Mixed set) :
    best set = some .half100 := by
  obtain ⟨half100, full10, full100⟩ := mixed
  rw [InitPHY.best, full100, half100]
  rfl

/-- For all options, configurations and answers of the PHY, a call of `InitPHY`
that returns 0 and never found `NetDevStopFlag` set records the best technology
of the permitted set exactly when that set is not mixed.

Proof: what was recorded is determined by `RegDump`, and `RegDump` by the last reads of
the call, so that the question is one about two masks. It is settled for any set of
technologies by `tests_best`, once for a negotiated mode and once for a fixed one. -/
theorem recordsBest_iff {options : Options} {smapConfiguration : BitVec 32}
    {steps : List (Call × Event)} {call : Call}
    (run : Runs.Run (Call.step options) (Called smapConfiguration) steps call)
    (returned : call.pc = .returned true) (unstopped : Unstopped (history steps)) :
    RecordsBest options smapConfiguration (history steps) call ↔
      Unmixed options smapConfiguration (history steps) := by
  obtain ⟨regDump, length, readBack, records⟩ :=
    ((run_dumped run).determined returned unstopped).records
  have bmcr : dumped regDump dsPhyterBmcr = lastRead dsPhyterBmcr (history steps) :=
    readBack _ (by rw [length]; decide)
  have anar : dumped regDump dsPhyterAnar = lastRead dsPhyterAnar (history steps) :=
    readBack _ (by rw [length]; decide)
  have anlpar : dumped regDump dsPhyterAnlpar = lastRead dsPhyterAnlpar (history steps) :=
    readBack _ (by rw [length]; decide)
  have byNegotiation (enabled : hasBits (lastRead dsPhyterBmcr (history steps)) phyBmcrAnen = true)
      (technology : Technology) (isBest : best (common (history steps)) = some technology) :
      Records call technology ↔ ¬ Mixed (common (history steps)) := by
    rw [records technology]
    simp only [negotiated, bmcr, enabled, if_true, anar, anlpar]
    exact tests_best (by decide) (by decide) isBest
  have byConfiguration (fixed : options.enableAutoNegotiation = false)
      (readsBack : lastWritten dsPhyterBmcr (history steps) =
        some (lastRead dsPhyterBmcr (history steps)))
      (technology : Technology) (isBest : best smapConfiguration = some technology) :
      Records call technology ↔ ¬ Mixed smapConfiguration := by
    have written := (run_inFixedMode fixed run).written (by rw [returned]; rfl)
    have same : lastRead dsPhyterBmcr (history steps) = fixedBmcr smapConfiguration :=
      Option.some.inj (readsBack.symm.trans written)
    obtain ⟨disabled, fast, full⟩ := fixedBmcr_bits smapConfiguration
    rw [records technology]
    simp only [negotiated, bmcr, same, disabled, fast, full, Bool.false_eq_true, if_false]
    exact tests_best (by decide) (by decide) isBest
  constructor
  · intro recorded
    constructor
    · intro enabled mixed
      have half100 := recorded.negotiated enabled _ mixed.best
      exact (byNegotiation enabled _ mixed.best).mp half100 mixed
    · intro fixed readsBack mixed
      have half100 := recorded.fixed fixed readsBack _ mixed.best
      exact (byConfiguration fixed readsBack _ mixed.best).mp half100 mixed
  · intro unmixed
    constructor
    · intro enabled technology isBest
      exact (byNegotiation enabled technology isBest).mpr (unmixed.negotiated enabled)
    · intro fixed readsBack technology isBest
      exact (byConfiguration fixed readsBack technology isBest).mpr (unmixed.fixed fixed readsBack)

/-- With a configuration of all four technologies fixed mode records 100 full. -/
theorem recordsBest_iff_fixed : ∃ steps call,
    Runs.Run (Call.step ⟨false, false, false⟩) (Called 0x5e0) steps call ∧
    (RecordsBest ⟨false, false, false⟩ 0x5e0 (history steps) call ↔
      Unmixed ⟨false, false, false⟩ 0x5e0 (history steps)) := by
  obtain ⟨steps, call, run, returned, unstopped⟩ := Runs.run_of_performed
    (Call.step ⟨false, false, false⟩)
    (fun steps call => call.pc = .returned true ∧ .stopFlag true ∉ history steps)
    (⟨rfl, rfl⟩ : Called 0x5e0 ⟨.reset, false, 0, 0x5e0, 0⟩)
    (fixedModeEvents (fixedBmcr 0x5e0) 0) (by decide)
  exact ⟨steps, call, run, recordsBest_iff run returned unstopped⟩

/-- With a configuration of 100 half and 10 full, fixed mode records 100 full. -/
theorem recordsBest_fails : ∃ steps call,
    Runs.Run (Call.step ⟨false, false, false⟩) (Called 0x0c0) steps call ∧
    call.pc = .returned true ∧ Unstopped (history steps) ∧ call.linkMode = 8 ∧
    ¬ RecordsBest ⟨false, false, false⟩ 0x0c0 (history steps) call := by
  obtain ⟨steps, call, run, returned, unstopped, linkMode, readsBack⟩ := Runs.run_of_performed
    (Call.step ⟨false, false, false⟩)
    (fun steps call => call.pc = .returned true ∧ .stopFlag true ∉ history steps ∧
      call.linkMode = 8 ∧
      lastWritten dsPhyterBmcr (history steps) = some (lastRead dsPhyterBmcr (history steps)))
    (⟨rfl, rfl⟩ : Called 0x0c0 ⟨.reset, false, 0, 0x0c0, 0⟩)
    (fixedModeEvents (fixedBmcr 0x0c0) 0) (by decide)
  refine ⟨steps, call, run, returned, unstopped, linkMode, ?_⟩
  intro recorded
  have half100 := (recorded.fixed rfl readsBack .half100 (by decide)).linkMode
  rw [linkMode] at half100
  exact absurd half100 (by decide)

end Ps2Eth.Smap.InitPHY
