import Ps2Eth.SmapLinux.Phy

/-!
# The fall-back to a fixed speed

After auto-negotiation failed `ForceSPD100M` of `smap-linux/smap.c` tries
100 Mbit/s, and 10 Mbit/s if no link comes up. `ConfirmForceSPD` tells the two
attempts apart by flags that it clears itself, and once goes back into its own
success branch after setting one of them again.

An attempt is read off the accesses: a speed written to BMCR and the reads of the
link status behind it. A read that failed counts as a value with all its bits set,
the link bit among them.
-/

namespace Ps2Eth.SmapLinux

/-- The link bit is set in what the read returned. -/
def PhyOp.seesLink : PhyOp → Bool
  | .read .bmsr value => hasBit (Phy.returned value) phyBmsrLink
  | .read .physts value => hasBit (Phy.returned value) phyStsLink
  | _ => false

/-- A speed written to BMCR, and the reads of the link status that follow. -/
def Attempt (speed : BitVec 32) (ops : List PhyOp) : Prop :=
  ∃ completed reads, ops = .write .bmcr speed completed :: reads ∧
    ∀ op ∈ reads, op.readsReg .bmsr = true ∨ op.readsReg .physts = true

/-- What `ForceSPD100M` does: an attempt at 100 Mbit/s, one at 10 Mbit/s if the
first saw no link, and the accesses of `PhySetDSP`. -/
structure Fallback (before after : Phy) (first second dsp : List PhyOp) : Prop where
  ops : after.ops = before.ops ++ (first ++ (second ++ dsp))
  at100 : Attempt phyBmcr100m first
  at10 : if first.any PhyOp.seesLink then second = [] else Attempt phyBmcr10m second
  behind : dsp = [] ∨ ∃ value later, dsp = .read .phyidr1 value :: later
  check100 : hasBit after.u32Flags smapFCheckForce100m = false
  check10 : hasBit after.u32Flags smapFCheckForce10m = false
  half : hasBit after.u32Flags smapFLinkestablish = true →
    after.mode1 &&& (e3FdxEnable ||| e3FlowctrlEnable ||| e3AllowPf) = 0
  media100 : hasBit after.u32Flags smapFLinkestablish = true → first.any PhyOp.seesLink = true →
    after.mode1 &&& e3MediaMsk = e3Media100m
  media10 : hasBit after.u32Flags smapFLinkestablish = true → first.any PhyOp.seesLink = false →
    second.any PhyOp.seesLink = true ∧ after.mode1 &&& e3MediaMsk = e3Media10m ∧
      after.mode1 &&& e3IgnoreSqe = 0
  failed : hasBit after.u32Flags smapFLinkestablish = false →
    first.any PhyOp.seesLink = false ∧ second.any PhyOp.seesLink = false ∧ dsp = [] ∧
      after.mode1 = before.mode1

section Bits

variable (value left right mask : BitVec 32)

/-- A bit is set in a union where it is set in one of the two parts. -/
theorem hasBit_or : hasBit (left ||| right) mask = (hasBit left mask || hasBit right mask) := by
  have none : left &&& mask ||| right &&& mask = 0 ↔ left &&& mask = 0 ∧ right &&& mask = 0 :=
    BitVec.or_eq_zero_iff
  simp only [hasBit, BitVec.and_or_distrib_right]
  rw [Bool.eq_iff_iff]
  simp only [bne_iff_ne, ne_eq, none, Bool.or_eq_true, not_and_or]

variable {mask}

/-- A bit that is cleared is not there. -/
theorem hasBit_cleared {cleared : BitVec 32} (inside : ~~~cleared &&& mask = 0) :
    hasBit (value &&& ~~~cleared) mask = false := by
  simp [hasBit, BitVec.and_assoc, inside]

/-- A bit that is not cleared stays. -/
theorem hasBit_kept {cleared : BitVec 32} (outside : ~~~cleared &&& mask = mask) :
    hasBit (value &&& ~~~cleared) mask = hasBit value mask := by
  simp only [hasBit, BitVec.and_assoc, outside]

/-- A bit that is added is there. -/
theorem hasBit_added {added : BitVec 32} (inside : hasBit added mask = true) :
    hasBit (value ||| added) mask = true := by
  rw [hasBit_or, inside, Bool.or_true]

/-- A field that is cleared holds what is put there. -/
theorem field_replaced {cleared field : BitVec 32} (inside : ~~~cleared &&& mask = 0) :
    ((value &&& ~~~cleared) ||| field) &&& mask = field &&& mask := by
  rw [BitVec.and_or_distrib_right, BitVec.and_assoc, inside]
  simp

end Bits

/-- The mode for half duplex at 100 Mbit/s. -/
theorem forcedMode_100 {flags : BitVec 32} (mode : BitVec 32)
    (check100 : hasBit flags smapFCheckForce100m = true) :
    Phy.forcedMode flags mode &&& (e3FdxEnable ||| e3FlowctrlEnable ||| e3AllowPf) = 0 ∧
      Phy.forcedMode flags mode &&& e3MediaMsk = e3Media100m := by
  simp only [Phy.forcedMode, check100, if_true]
  constructor
  · rw [field_replaced _ (by decide)]
    decide
  · rw [field_replaced _ (by decide)]
    decide

/-- The mode for half duplex at 10 Mbit/s. -/
theorem forcedMode_10 {flags : BitVec 32} (mode : BitVec 32)
    (check100 : hasBit flags smapFCheckForce100m = false)
    (check10 : hasBit flags smapFCheckForce10m = true) :
    Phy.forcedMode flags mode &&& (e3FdxEnable ||| e3FlowctrlEnable ||| e3AllowPf) = 0 ∧
      Phy.forcedMode flags mode &&& e3MediaMsk = e3Media10m ∧
      Phy.forcedMode flags mode &&& e3IgnoreSqe = 0 := by
  simp only [Phy.forcedMode, check100, check10, Bool.false_eq_true, if_false, if_true,
    BitVec.and_assoc, ← BitVec.not_or]
  refine ⟨?_, ?_, ?_⟩
  · rw [field_replaced _ (by decide)]
    decide
  · rw [field_replaced _ (by decide)]
    decide
  · rw [field_replaced _ (by decide)]
    decide

namespace Phy

/-- Accesses were made that leave the EMAC mode alone. -/
structure Handled (before after : Phy) (ops : List PhyOp) : Prop where
  accessed : Accessed before after ops
  mode1 : after.mode1 = before.mode1

/-- Doing nothing makes no accesses and leaves the EMAC mode alone. -/
theorem Handled.refl (phy : Phy) : Handled phy phy [] := ⟨Accessed.refl phy, rfl⟩

/-- Two stretches of accesses that leave the EMAC mode alone make one. -/
theorem Handled.trans {first second third : Phy} {earlier later : List PhyOp}
    (early : Handled first second earlier) (late : Handled second third later) :
    Handled first third (earlier ++ later) :=
  ⟨early.accessed.trans late.accessed, late.mode1.trans early.mode1⟩

/-- Waiting for the PHY reads the EMAC without writing its mode register. -/
theorem waitComplete_mode1 (phy : Phy) : phy.waitComplete.2.mode1 = phy.mode1 :=
  Polling.poll_kept (fun after : Phy => after.mode1 = phy.mode1) (fun _ kept => kept) _ rfl

/-- A read of a PHY register leaves the EMAC mode alone, whether it completes or not. -/
theorem readPhy_mode1 (reg : PhyReg) (phy : Phy) : (readPhy reg phy).2.mode1 = phy.mode1 := by
  have ready := phy.waitComplete_mode1
  have done := phy.waitComplete.2.waitComplete_mode1
  simp only [readPhy]
  split
  · exact ready
  · split
    · exact done.trans ready
    · exact done.trans ready

/-- A write of a PHY register leaves the EMAC mode alone as well. -/
theorem writePhy_mode1 (phy : Phy) (reg : PhyReg) (data : BitVec 32) :
    (phy.writePhy reg data).mode1 = phy.mode1 := by
  have ready := phy.waitComplete_mode1
  have done := phy.waitComplete.2.waitComplete_mode1
  simp only [writePhy]
  split
  · exact ready
  · exact done.trans ready

/-- A read of a PHY register is one access, whose value is what the caller gets. -/
theorem readPhy_handled (reg : PhyReg) (phy : Phy) :
    ∃ value, (readPhy reg phy).1 = returned value ∧
      Handled phy (readPhy reg phy).2 [.read reg value] := by
  obtain ⟨value, same, accessed⟩ := readPhy_accessed reg phy
  exact ⟨value, same, accessed, readPhy_mode1 reg phy⟩

/-- A write is one access too, completed or timed out. -/
theorem writePhy_handled (phy : Phy) (reg : PhyReg) (data : BitVec 32) :
    ∃ completed, Handled phy (phy.writePhy reg data) [.write reg data completed] := by
  obtain ⟨completed, accessed⟩ := phy.writePhy_accessed reg data
  exact ⟨completed, accessed, phy.writePhy_mode1 reg data⟩

section LinkPoll

variable {turns : Nat} {phy after : Phy}

/-- Reads of BMSR, with or without the link bit in one of them. -/
structure LinkReads (before after : Phy) (reads : List PhyOp) (seen : Bool) : Prop where
  handled : Handled before after reads
  bmsr : ∀ op ∈ reads, op.readsReg .bmsr = true
  seen : reads.any PhyOp.seesLink = seen

/-- One more read of BMSR. -/
theorem LinkReads.read {middle : Phy} {reads : List PhyOp} (before : LinkReads phy middle reads false) :
    ∃ more, LinkReads phy (readPhy .bmsr middle).2 more
      (hasBit (readPhy .bmsr middle).1 phyBmsrLink) := by
  obtain ⟨value, same, handled⟩ := readPhy_handled .bmsr middle
  refine ⟨_, before.handled.trans handled, ?_, ?_⟩
  · intro op member
    rcases List.mem_append.mp member with early | late
    · exact before.bmsr op early
    · rw [List.mem_singleton.mp late]
      rfl
  · rw [List.any_append, before.seen, Bool.false_or, same]
    simp [PhyOp.seesLink]

/-- The wait for the link ends with the first link bit that is seen, or without one. -/
theorem linkPoll (turns : Nat) (phy : Phy) : ∃ reads,
    LinkReads phy (Polling.poll (readPhy .bmsr) (hasBit · phyBmsrLink) turns phy).2 reads
      (Polling.poll (readPhy .bmsr) (hasBit · phyBmsrLink) turns phy).1.isSome := by
  suffices later : ∀ middle reads, LinkReads phy middle reads false → ∃ reads,
      LinkReads phy (Polling.poll (readPhy .bmsr) (hasBit · phyBmsrLink) turns middle).2 reads
        (Polling.poll (readPhy .bmsr) (hasBit · phyBmsrLink) turns middle).1.isSome from
    later phy [] ⟨Handled.refl phy, by simp, rfl⟩
  induction turns with
  | zero => exact fun middle reads before => ⟨reads, before⟩
  | succ turns inductionHypothesis =>
    intro middle reads before
    obtain ⟨more, read⟩ := before.read
    rw [Polling.poll]
    by_cases link : hasBit (readPhy .bmsr middle).1 phyBmsrLink = true
    · rw [if_pos link]
      rw [link] at read
      exact ⟨more, read⟩
    · rw [if_neg link]
      simp only [Bool.not_eq_true] at link
      rw [link] at read
      exact inductionHypothesis _ more read

end LinkPoll

/-- Accesses were made that start with the identification of the PHY. -/
def Identified (before after : Phy) : Prop :=
  ∃ value later, Handled before after (.read .phyidr1 value :: later)

/-- The PHY stays identified when a register is read. -/
theorem Identified.read {before after : Phy} (identified : Identified before after) (reg : PhyReg) :
    Identified before (readPhy reg after).2 := by
  obtain ⟨value, later, handled⟩ := identified
  obtain ⟨_, -, more⟩ := readPhy_handled reg after
  exact ⟨value, _, handled.trans more⟩

/-- It stays identified when a register is written. -/
theorem Identified.write {before after : Phy} (identified : Identified before after) (reg : PhyReg)
    (data : BitVec 32) : Identified before (after.writePhy reg data) := by
  obtain ⟨value, later, handled⟩ := identified
  obtain ⟨_, more⟩ := after.writePhy_handled reg data
  exact ⟨value, _, handled.trans more⟩

/-- What `PhySetDSP` does once the link is established. -/
theorem phySetDSP_identified (phy : Phy)
    (established : hasBit phy.u32Flags smapFLinkestablish = true) :
    ∃ after, Identified phy after ∧
      (phy.phySetDSP = after ∨ phy.phySetDSP = after.setFlags smapFLinkvalid) := by
  have moded : Handled phy { phy with u32TXMode := phy.mode1 } [] :=
    ⟨⟨(List.append_nil _).symm, rfl, rfl⟩, rfl⟩
  obtain ⟨id1, -, first⟩ := readPhy_handled .phyidr1 { phy with u32TXMode := phy.mode1 }
  have ids := Identified.read ⟨id1, [], moded.trans first⟩ .phyidr2
  simp only [phySetDSP, established, Bool.not_true, Bool.false_eq_true, if_false]
  split
  · exact ⟨_, ids, Or.inr rfl⟩
  · split
    · exact ⟨_, ids, Or.inl rfl⟩
    · have written := ((((((ids.write (.other 0x13) 0x0001).write (.other 0x19) 0x1898).write
        (.other 0x1f) 0x0000).write (.other 0x1d) 0x5040).write (.other 0x1e) 0x008c).write
        (.other 0x13) 0x0000).read .physts
      split
      · exact ⟨_, written.write (.other 0x1a) 0x0104, Or.inr rfl⟩
      · exact ⟨_, written, Or.inr rfl⟩

/-- What the label `validlink` does. -/
structure Validated (before after : Phy) (dsp : List PhyOp) : Prop where
  ops : after.ops = before.ops ++ dsp
  behind : ∃ value later, dsp = .read .phyidr1 value :: later
  mode1 : after.mode1 = forcedMode before.u32Flags before.mode1
  check100 : hasBit after.u32Flags smapFCheckForce100m = false
  check10 : hasBit after.u32Flags smapFCheckForce10m = false
  established : hasBit after.u32Flags smapFLinkestablish = true

/-- The label `validlink` is reached with one read of the DSP register and does what
`Validated` says. -/
theorem validlink_validated (phy : Phy) : ∃ dsp, Validated phy phy.validlink dsp := by
  let settled := (phy.u32Flags &&& ~~~(smapFCheckForce100m ||| smapFCheckForce10m)) |||
    smapFLinkestablish
  have check100 : hasBit settled smapFCheckForce100m = false := by
    rw [hasBit_or, hasBit_cleared _ (by decide)]
    decide
  have check10 : hasBit settled smapFCheckForce10m = false := by
    rw [hasBit_or, hasBit_cleared _ (by decide)]
    decide
  have established : hasBit settled smapFLinkestablish = true := hasBit_added _ (by decide)
  obtain ⟨after, ⟨value, later, handled⟩, outcome⟩ := phySetDSP_identified
    { phy with mode1 := forcedMode phy.u32Flags phy.mode1, u32Flags := settled } established
  have flags : after.u32Flags = settled := handled.accessed.flags
  refine ⟨.read .phyidr1 value :: later, ?_⟩
  rcases outcome with outcome | outcome
  · have same : phy.validlink = after := outcome
    rw [same]
    exact ⟨handled.accessed.ops, ⟨value, later, rfl⟩, handled.mode1, flags ▸ check100,
      flags ▸ check10, flags ▸ established⟩
  · have same : phy.validlink = after.setFlags smapFLinkvalid := outcome
    rw [same]
    refine ⟨handled.accessed.ops, ⟨value, later, rfl⟩, handled.mode1, ?_, ?_, ?_⟩
    · rw [setFlags, hasBit_or, flags, check100]
      decide
    · rw [setFlags, hasBit_or, flags, check10]
      decide
    · rw [setFlags, hasBit_or, flags, established, Bool.true_or]

/-- A forced speed starts an attempt at it. -/
theorem forceSPD_handled (phy : Phy) (speed check : BitVec 32) :
    ∃ completed, (phy.forceSPD speed check).ops = phy.ops ++ [.write .bmcr speed completed] ∧
      (phy.forceSPD speed check).u32Flags = phy.u32Flags ||| check ∧
      (phy.forceSPD speed check).mode1 = phy.mode1 := by
  obtain ⟨completed, handled⟩ := phy.writePhy_handled .bmcr speed
  refine ⟨completed, handled.accessed.ops, ?_, handled.mode1⟩
  rw [forceSPD, setFlags, handled.accessed.flags]

/-- What the second entry of `ConfirmForceSPD` does. -/
structure Second (before after : Phy) (reads dsp : List PhyOp) : Prop where
  ops : after.ops = before.ops ++ (reads ++ dsp)
  status : ∀ op ∈ reads, op.readsReg .bmsr = true ∨ op.readsReg .physts = true
  outcome : (reads.any PhyOp.seesLink = true ∧
      ∃ middle, Validated middle after dsp ∧ middle.mode1 = before.mode1 ∧
        hasBit middle.u32Flags smapFCheckForce100m = false ∧
        hasBit middle.u32Flags smapFCheckForce10m = true) ∨
    (reads.any PhyOp.seesLink = false ∧ dsp = [] ∧ after.mode1 = before.mode1 ∧
      after.u32Flags = before.u32Flags &&& ~~~smapFCheckForce10m)

/-- The link showed in BMSR. -/
theorem second_linked {phy waited : Phy} {reads : List PhyOp}
    (check100 : hasBit phy.u32Flags smapFCheckForce100m = false)
    (check10 : hasBit phy.u32Flags smapFCheckForce10m = true)
    (polled : LinkReads phy waited reads true) : ∃ dsp, Second phy waited.validlink reads dsp := by
  have flags : waited.u32Flags = phy.u32Flags := polled.handled.accessed.flags
  obtain ⟨dsp, validated⟩ := validlink_validated waited
  refine ⟨dsp, ?_, fun op member => Or.inl (polled.bmsr op member),
    Or.inl ⟨polled.seen, waited, validated, polled.handled.mode1, ?_, ?_⟩⟩
  · rw [validated.ops, polled.handled.accessed.ops, List.append_assoc]
  · rw [flags, check100]
  · rw [flags, check10]

/-- The wait ran out, and the check is over. Then the link may show in `PHYSTS`. -/
theorem second_ranOut {phy waited : Phy} {reads : List PhyOp}
    (check100 : hasBit phy.u32Flags smapFCheckForce100m = false)
    (polled : LinkReads phy waited reads false) :
    ∃ more dsp, Second phy
      (if hasBit (readPhy .physts (waited.clearFlags smapFCheckForce10m)).1 phyStsLink then
        ((readPhy .physts (waited.clearFlags smapFCheckForce10m)).2.setFlags
          smapFCheckForce10m).validlink
      else (readPhy .physts (waited.clearFlags smapFCheckForce10m)).2) more dsp := by
  have flags : waited.u32Flags = phy.u32Flags := polled.handled.accessed.flags
  obtain ⟨sts, same, read⟩ := readPhy_handled .physts (waited.clearFlags smapFCheckForce10m)
  generalize readPhy .physts (waited.clearFlags smapFCheckForce10m) = answer at same read ⊢
  have status : ∀ op ∈ reads ++ [.read .physts sts],
      op.readsReg .bmsr = true ∨ op.readsReg .physts = true := by
    intro op member
    rcases List.mem_append.mp member with early | late
    · exact Or.inl (polled.bmsr op early)
    · rw [List.mem_singleton.mp late]
      exact Or.inr rfl
  have seen : (reads ++ [PhyOp.read .physts sts]).any PhyOp.seesLink =
      hasBit (returned sts) phyStsLink := by
    rw [List.any_append, polled.seen]
    simp [PhyOp.seesLink]
  have ops : answer.2.ops = phy.ops ++ (reads ++ [.read .physts sts]) := by
    rw [read.accessed.ops, ← List.append_assoc]
    exact congrArg (· ++ _) polled.handled.accessed.ops
  have mode1 : answer.2.mode1 = phy.mode1 := read.mode1.trans polled.handled.mode1
  have cleared : answer.2.u32Flags = phy.u32Flags &&& ~~~smapFCheckForce10m := by
    rw [read.accessed.flags, clearFlags, flags]
  refine ⟨reads ++ [.read .physts sts], ?_⟩
  rw [same]
  by_cases up : hasBit (returned sts) phyStsLink = true
  · rw [if_pos up]
    obtain ⟨dsp, validated⟩ := validlink_validated (answer.2.setFlags smapFCheckForce10m)
    refine ⟨dsp, ?_, status, Or.inl ⟨seen.trans up, _, validated, mode1, ?_, ?_⟩⟩
    · rw [validated.ops, ← List.append_assoc, ← ops]
      rfl
    · rw [setFlags, hasBit_or, cleared, hasBit_kept _ (by decide), check100]
      decide
    · exact hasBit_added _ (by decide)
  · rw [if_neg up]
    rw [Bool.not_eq_true] at up
    refine ⟨[], ?_, status, Or.inr ⟨seen.trans up, rfl, mode1, cleared⟩⟩
    rw [List.append_nil, ops]

/-- At 10 Mbit/s the link may also show in `PHYSTS`, when the wait has run out. -/
theorem confirmForceSPD_second {phy : Phy}
    (check100 : hasBit phy.u32Flags smapFCheckForce100m = false)
    (check10 : hasBit phy.u32Flags smapFCheckForce10m = true) :
    ∃ reads dsp, Second phy (confirmForceSPD 1 phy) reads dsp := by
  obtain ⟨reads, polled⟩ := linkPoll smapForcemodeTimeout phy
  rcases bmsr : Polling.poll (readPhy .bmsr) (hasBit · phyBmsrLink) smapForcemodeTimeout phy with
    ⟨_ | value, waited⟩
  · rw [bmsr] at polled
    have flags : waited.u32Flags = phy.u32Flags := polled.handled.accessed.flags
    simp only [confirmForceSPD, bmsr, flags, check100, check10, Bool.false_eq_true, if_false,
      if_true]
    exact second_ranOut check100 polled
  · rw [bmsr] at polled
    simp only [confirmForceSPD, bmsr]
    exact ⟨reads, second_linked check100 check10 polled⟩

/-- The flags of an attempt at 10 Mbit/s. -/
theorem retry_flags (flags : BitVec 32) :
    hasBit (flags &&& ~~~smapFCheckForce100m ||| smapFCheckForce10m) smapFCheckForce100m = false ∧
      hasBit (flags &&& ~~~smapFCheckForce100m ||| smapFCheckForce10m) smapFCheckForce10m = true := by
  constructor
  · rw [hasBit_or, hasBit_cleared _ (by decide)]
    decide
  · exact hasBit_added _ (by decide)

/-- Without the check of 100 Mbit/s under way `ConfirmForceSPD` is entered once. -/
theorem confirmForceSPD_once (calls : Nat) {phy : Phy}
    (last : hasBit phy.u32Flags smapFCheckForce100m = false) :
    confirmForceSPD (calls + 1) phy = confirmForceSPD 1 phy := by
  rcases bmsr : Polling.poll (readPhy .bmsr) (hasBit · phyBmsrLink) smapForcemodeTimeout phy with
    ⟨_ | value, polled⟩
  · obtain ⟨_, accessed, _⟩ := poll_ran_out bmsr
    rw [← accessed.flags] at last
    simp only [confirmForceSPD, bmsr, last, Bool.false_eq_true, if_false]
  · simp only [confirmForceSPD, bmsr]

/-- `ConfirmForceSPD` is entered at most twice: more calls make no difference. -/
theorem confirmForceSPD_calls (calls : Nat) (phy : Phy) :
    confirmForceSPD (calls + 2) phy = confirmForceSPD 2 phy := by
  rcases bmsr : Polling.poll (readPhy .bmsr) (hasBit · phyBmsrLink) smapForcemodeTimeout phy with
    ⟨_ | value, polled⟩
  · obtain ⟨_, -, forcedFlags, -⟩ :=
      (polled.clearFlags smapFCheckForce100m).forceSPD_handled phyBmcr10m smapFCheckForce10m
    have last : hasBit ((polled.clearFlags smapFCheckForce100m).forceSPD phyBmcr10m
        smapFCheckForce10m).u32Flags smapFCheckForce100m = false := by
      rw [forcedFlags]
      exact (retry_flags polled.u32Flags).1
    rw [confirmForceSPD, confirmForceSPD]
    simp only [bmsr, confirmForceSPD_once calls last]
  · simp only [confirmForceSPD, bmsr]

/-- Reads of BMSR behind a speed are an attempt at it. -/
theorem attempt_bmsr (speed : BitVec 32) (completed : Bool) {reads : List PhyOp}
    (bmsr : ∀ op ∈ reads, op.readsReg .bmsr = true) :
    Attempt speed (.write .bmcr speed completed :: reads) :=
  ⟨completed, reads, rfl, fun op member => Or.inl (bmsr op member)⟩

section Outcomes

variable {before middle after : Phy} {first second dsp : List PhyOp}

/-- The link was seen at 100 Mbit/s. -/
theorem fallback_at100 (ops : after.ops = before.ops ++ (first ++ dsp))
    (at100 : Attempt phyBmcr100m first) (seen : first.any PhyOp.seesLink = true)
    (validated : Validated middle after dsp)
    (check100 : hasBit middle.u32Flags smapFCheckForce100m = true) :
    Fallback before after first [] dsp := by
  obtain ⟨half, media⟩ := forcedMode_100 middle.mode1 check100
  rw [← validated.mode1] at half media
  refine ⟨ops, at100, if_pos seen ▸ rfl, Or.inr validated.behind, validated.check100,
    validated.check10, fun _ => half, fun _ _ => media, ?_, ?_⟩
  · exact fun _ unseen => absurd (seen.symm.trans unseen) (by decide)
  · exact fun failed => absurd (failed.symm.trans validated.established) (by decide)

/-- The link was seen at 10 Mbit/s only. -/
theorem fallback_at10 (ops : after.ops = before.ops ++ (first ++ (second ++ dsp)))
    (at100 : Attempt phyBmcr100m first) (dark : first.any PhyOp.seesLink = false)
    (at10 : Attempt phyBmcr10m second) (seen : second.any PhyOp.seesLink = true)
    (validated : Validated middle after dsp)
    (check100 : hasBit middle.u32Flags smapFCheckForce100m = false)
    (check10 : hasBit middle.u32Flags smapFCheckForce10m = true) :
    Fallback before after first second dsp := by
  obtain ⟨half, media, sqe⟩ := forcedMode_10 middle.mode1 check100 check10
  rw [← validated.mode1] at half media sqe
  have next : if first.any PhyOp.seesLink then second = [] else Attempt phyBmcr10m second := by
    rwa [dark]
  refine ⟨ops, at100, next, Or.inr validated.behind, validated.check100, validated.check10,
    fun _ => half, ?_, fun _ _ => ⟨seen, media, sqe⟩, ?_⟩
  · exact fun _ link => absurd (dark.symm.trans link) (by decide)
  · exact fun failed => absurd (failed.symm.trans validated.established) (by decide)

/-- No link was seen in either attempt: the mode and the flags are as they were before
both. -/
theorem fallback_dark (ops : after.ops = before.ops ++ (first ++ (second ++ [])))
    (at100 : Attempt phyBmcr100m first) (dark : first.any PhyOp.seesLink = false)
    (at10 : Attempt phyBmcr10m second) (none : second.any PhyOp.seesLink = false)
    (mode1 : after.mode1 = before.mode1)
    (check100 : hasBit after.u32Flags smapFCheckForce100m = false)
    (check10 : hasBit after.u32Flags smapFCheckForce10m = false)
    (down : hasBit after.u32Flags smapFLinkestablish = false) :
    Fallback before after first second [] := by
  have next : if first.any PhyOp.seesLink then second = [] else Attempt phyBmcr10m second := by
    rwa [dark]
  refine ⟨ops, at100, next, Or.inl rfl, check100, check10, ?_, ?_, ?_, ?_⟩
  · exact fun up => absurd (down.symm.trans up) (by decide)
  · exact fun up => absurd (down.symm.trans up) (by decide)
  · exact fun up => absurd (down.symm.trans up) (by decide)
  · exact fun _ => ⟨dark, none, rfl, mode1⟩

end Outcomes

/-- When 100 Mbit/s shows no link, the outcome is that of the attempt at 10 Mbit/s.

Proof: the flag of the first attempt is cleared before the second sets its own, and the two
masks are apart. Then the outcomes of the second attempt are those of the whole. -/
theorem fallback_second {phy waited : Phy} {reads : List PhyOp} {completed : Bool}
    (fresh : hasBit phy.u32Flags smapFLinkestablish = false)
    (ops : waited.ops = phy.ops ++ (.write .bmcr phyBmcr100m completed :: reads))
    (flags : waited.u32Flags = phy.u32Flags ||| smapFCheckForce100m)
    (mode1 : waited.mode1 = phy.mode1) (bmsr : ∀ op ∈ reads, op.readsReg .bmsr = true)
    (unseen : reads.any PhyOp.seesLink = false) :
    ∃ first second dsp, Fallback phy (confirmForceSPD 1
      ((waited.clearFlags smapFCheckForce100m).forceSPD phyBmcr10m smapFCheckForce10m))
      first second dsp := by
  obtain ⟨again, forcedOps, forcedFlags, forcedMode1⟩ :=
    (waited.clearFlags smapFCheckForce100m).forceSPD_handled phyBmcr10m smapFCheckForce10m
  obtain ⟨check100, check10⟩ := retry_flags waited.u32Flags
  have starts : (waited.clearFlags smapFCheckForce100m).ops = waited.ops := rfl
  have keeps : (waited.clearFlags smapFCheckForce100m).mode1 = waited.mode1 := rfl
  have clears : (waited.clearFlags smapFCheckForce100m).u32Flags =
      waited.u32Flags &&& ~~~smapFCheckForce100m := rfl
  rw [clears] at forcedFlags
  obtain ⟨reads10, dsp, retried, status, outcome⟩ := confirmForceSPD_second
    (forcedFlags ▸ check100) (forcedFlags ▸ check10)
  generalize (waited.clearFlags smapFCheckForce100m).forceSPD phyBmcr10m smapFCheckForce10m =
    forced at *
  have dark : (PhyOp.write .bmcr phyBmcr100m completed :: reads).any PhyOp.seesLink = false := unseen
  have all : (confirmForceSPD 1 forced).ops =
      phy.ops ++ ((.write .bmcr phyBmcr100m completed :: reads) ++
        ((.write .bmcr phyBmcr10m again :: reads10) ++ dsp)) := by
    rw [retried, forcedOps, starts, ops]
    simp
  have at100 := attempt_bmsr phyBmcr100m completed bmsr
  have at10 : Attempt phyBmcr10m (.write .bmcr phyBmcr10m again :: reads10) :=
    ⟨again, reads10, rfl, status⟩
  refine ⟨.write .bmcr phyBmcr100m completed :: reads, .write .bmcr phyBmcr10m again :: reads10, dsp,
    ?_⟩
  rcases outcome with ⟨seen, middle, validated, -, check100, check10⟩ |
    ⟨none, rfl, sameMode, sameFlags⟩
  · exact fallback_at10 all at100 dark at10 seen validated check100 check10
  · apply fallback_dark all at100 dark at10 none
    · rw [sameMode, forcedMode1, keeps, mode1]
    · rw [sameFlags, hasBit_kept _ (by decide), forcedFlags, check100]
    · rw [sameFlags, hasBit_cleared _ (by decide)]
    · rw [sameFlags, hasBit_kept _ (by decide), forcedFlags, hasBit_or, hasBit_kept _ (by decide),
        flags, hasBit_or, fresh]
      decide

/-- After auto-negotiation failed the two attempts end, however the PHY answers: both
checks are over, an established link has the mode of the attempt that saw it, and
without a link nothing was changed.

Proof: the poll of the first attempt sees the link or runs out. Where it sees it,
`validlink` is reached at once; where it runs out, the flags of the first attempt are over
and the second is followed the same way. The recursion of `ConfirmForceSPD` is unfolded
once for each speed. -/
theorem forceSPD100M_fallback (phy : Phy) (fresh : hasBit phy.u32Flags smapFLinkestablish = false) :
    (∀ calls, confirmForceSPD (calls + 2) (phy.forceSPD phyBmcr100m smapFCheckForce100m) =
      phy.forceSPD100M) ∧
      ∃ first second dsp, Fallback phy phy.forceSPD100M first second dsp := by
  refine ⟨fun calls => confirmForceSPD_calls calls _, ?_⟩
  obtain ⟨completed, forcedOps, forcedFlags, forcedMode1⟩ :=
    phy.forceSPD_handled phyBmcr100m smapFCheckForce100m
  have check100 : hasBit (phy.u32Flags ||| smapFCheckForce100m) smapFCheckForce100m = true :=
    hasBit_added _ (by decide)
  obtain ⟨reads, polled⟩ :=
    linkPoll smapForcemodeTimeout (phy.forceSPD phyBmcr100m smapFCheckForce100m)
  rcases bmsr : Polling.poll (readPhy .bmsr) (hasBit · phyBmsrLink) smapForcemodeTimeout
    (phy.forceSPD phyBmcr100m smapFCheckForce100m) with ⟨_ | value, waited⟩
  · rw [bmsr] at polled
    have ops : waited.ops = phy.ops ++ (.write .bmcr phyBmcr100m completed :: reads) := by
      rw [polled.handled.accessed.ops, forcedOps, List.append_assoc]
      rfl
    have flags := polled.handled.accessed.flags.trans forcedFlags
    have later := fallback_second fresh ops flags (polled.handled.mode1.trans forcedMode1)
      polled.bmsr polled.seen
    have checked : hasBit waited.u32Flags smapFCheckForce100m = true := flags ▸ check100
    have outcome : phy.forceSPD100M = confirmForceSPD 1
        ((waited.clearFlags smapFCheckForce100m).forceSPD phyBmcr10m smapFCheckForce10m) := by
      rw [forceSPD100M, confirmForceSPD]
      simp only [bmsr]
      rw [if_pos checked]
    rw [outcome]
    exact later
  · rw [bmsr] at polled
    have flags := polled.handled.accessed.flags.trans forcedFlags
    rw [← flags] at check100
    obtain ⟨dsp, validated⟩ := validlink_validated waited
    have outcome : phy.forceSPD100M = waited.validlink := by
      rw [forceSPD100M, confirmForceSPD]
      simp only [bmsr]
    have seen : (PhyOp.write .bmcr phyBmcr100m completed :: reads).any PhyOp.seesLink = true :=
      polled.seen
    rw [outcome]
    refine ⟨.write .bmcr phyBmcr100m completed :: reads, [], dsp, ?_⟩
    apply fallback_at100 ?_ (attempt_bmsr phyBmcr100m completed polled.bmsr) seen validated check100
    rw [validated.ops, polled.handled.accessed.ops, forcedOps]
    simp

/-- A PHY that completes every access at once and has the link bit of BMSR set, on a
driver with nothing established. -/
def answeringPhy : Phy where
  staCtrl := fun _ => phyBmsrLink <<< 16 ||| e3PhyOpComp
  staReads := 0
  ops := []
  u32Flags := 0
  u32TXMode := 0
  mode1 := e3FdxEnable ||| e3Media10m
  spdRev := 0

/-- Its link comes up at 100 Mbit/s. -/
theorem forceSPD100M_fallback_answering : answeringPhy.forceSPD100M.mode1 = e3Media100m ∧
    ∃ first second dsp, Fallback answeringPhy answeringPhy.forceSPD100M first second dsp := by
  refine ⟨by decide +kernel, ?_⟩
  exact (forceSPD100M_fallback answeringPhy (by decide)).2

end Phy

end Ps2Eth.SmapLinux
