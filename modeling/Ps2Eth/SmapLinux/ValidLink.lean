import Ps2Eth.SmapLinux.Phy

/-!
# A valid link is witnessed

`SMap_Init` sets `SMAP_F_LINKVALID` in `PhySetDSP` only, after auto-negotiation
or after one of the forced speeds. Each of the two follows a polling loop, and
the loop ends on a read that showed the link, on one that failed and was taken
for a value with all its bits set, or, where `PHYSTS` is polled, on nothing at
all. From SPD revision 0x13 on the link is not looked at: complete
auto-negotiation is enough.
-/

namespace Ps2Eth.SmapLinux

/-- A completed read that shows the link up. -/
def PhyOp.showsLink : PhyOp → Bool
  | .read .bmsr (some value) => hasBit value phyBmsrLink
  | .read .physts (some value) => hasBit value phyStsLink
  | _ => false

/-- A completed read that shows auto-negotiation complete. -/
def PhyOp.showsNegotiated : PhyOp → Bool
  | .read .bmsr (some value) => hasBit value phyBmsrAncp
  | _ => false

/-- A read of a status register that failed. -/
def PhyOp.failsStatus : PhyOp → Bool
  | .read .bmsr none | .read .physts none => true
  | _ => false

/-- The reasons the driver has for a valid link: it was shown, or complete
auto-negotiation is enough, or a failed read or a poll of `PHYSTS` that ran out
was taken for it. -/
def Phy.Reasons (phy : Phy) : Prop :=
  (∃ op ∈ phy.ops, op.showsLink) ∨
    (0x13 ≤ phy.spdRev ∧ ∃ op ∈ phy.ops, op.showsNegotiated) ∨
    (∃ op ∈ phy.ops, op.failsStatus) ∨ smapLoopCount ≤ phy.ops.countP (PhyOp.readsReg .physts)

namespace Phy

/-- The link was marked valid. -/
def linkValid (phy : Phy) : Bool := hasBit phy.u32Flags smapFLinkvalid

/-- Later states know all the earlier accesses. -/
structure Extends (before after : Phy) : Prop where
  ops : before.ops <+: after.ops
  spdRev : after.spdRev = before.spdRev

/-- Later states know the accesses of all earlier ones. -/
theorem Extends.trans {first second third : Phy} (early : Extends first second)
    (late : Extends second third) : Extends first third :=
  ⟨early.ops.trans late.ops, late.spdRev.trans early.spdRev⟩

/-- Accesses only add to what is known of the PHY. -/
theorem Accessed.extends {before after : Phy} {ops : List PhyOp}
    (accessed : Accessed before after ops) : Extends before after :=
  ⟨⟨ops, accessed.ops.symm⟩, accessed.spdRev⟩

/-- Reasons stay reasons, as the accesses made do not go away. -/
theorem Reasons.later {before after : Phy} (reasons : before.Reasons) (later : Extends before after) :
    after.Reasons := by
  obtain ⟨more, grown⟩ := later.ops
  have kept {shows : PhyOp → Bool} (shown : ∃ op ∈ before.ops, shows op) :
      ∃ op ∈ after.ops, shows op := by
    obtain ⟨op, member, holds⟩ := shown
    exact ⟨op, later.ops.subset member, holds⟩
  rcases reasons with link | ⟨late, negotiated⟩ | failed | ranOut
  · exact Or.inl (kept link)
  · exact Or.inr (Or.inl ⟨later.spdRev ▸ late, kept negotiated⟩)
  · exact Or.inr (Or.inr (Or.inl (kept failed)))
  · apply Or.inr
    apply Or.inr
    apply Or.inr
    rw [← grown, List.countP_append]
    omega

/-- A read of `BMSR` or `PHYSTS` in which the link seems up is a reason. -/
theorem reasons_of_link {phy : Phy} {read : Option (BitVec 32)} {reg : PhyReg} {mask : BitVec 32}
    (status : (reg = .bmsr ∧ mask = phyBmsrLink) ∨ (reg = .physts ∧ mask = phyStsLink))
    (member : .read reg read ∈ phy.ops) (seems : hasBit (returned read) mask = true) :
    phy.Reasons := by
  cases read with
  | none =>
    refine Or.inr (Or.inr (Or.inl ⟨_, member, ?_⟩))
    rcases status with ⟨rfl, _⟩ | ⟨rfl, _⟩ <;> rfl
  | some value =>
    refine Or.inl ⟨_, member, ?_⟩
    rcases status with ⟨rfl, rfl⟩ | ⟨rfl, rfl⟩
    · exact seems
    · exact seems

/-- `ConfirmAutoNegotiation` leaves the flags alone, and returns 0 for a reason.

Proof: by its branches. From revision 0x13 on it returns 0 for the completed negotiation,
before it for the link in `PHYSTS`, or because the poll of that register has run out. -/
theorem confirmAutoNegotiation_reasons (phy : Phy) :
    (∃ ops, Accessed phy phy.confirmAutoNegotiation.2 ops) ∧
      (phy.confirmAutoNegotiation.1 = true → phy.confirmAutoNegotiation.2.Reasons) := by
  rcases bmsr : Polling.poll (readPhy .bmsr) (hasBit · phyBmsrAncp) smapAutonegoTimeout phy with
    ⟨_ | status, polled⟩
  · obtain ⟨ops, accessed, _⟩ := poll_ran_out bmsr
    simp only [confirmAutoNegotiation, bmsr]
    exact ⟨⟨ops, accessed⟩, by simp⟩
  · obtain ⟨complete, ops, read, accessed, member, rfl⟩ := poll_accessed bmsr
    have known : PhyOp.read .bmsr read ∈ polled.ops := by
      rw [accessed.ops]
      exact List.mem_append_right _ member
    by_cases late : 0x13 ≤ polled.spdRev
    · simp only [confirmAutoNegotiation, bmsr, if_pos late]
      refine ⟨⟨ops, accessed⟩, fun _ => ?_⟩
      cases read with
      | none => exact Or.inr (Or.inr (Or.inl ⟨_, known, rfl⟩))
      | some value => exact Or.inr (Or.inl ⟨late, _, known, complete⟩)
    · rcases physts : Polling.poll (readPhy .physts)
        (fun iPhyVal => hasBit iPhyVal phyStsAncp && hasBit iPhyVal phyStsLink) smapLoopCount polled with
        ⟨_ | iPhyVal, final⟩
      · obtain ⟨more, later, count⟩ := poll_ran_out physts
        simp only [confirmAutoNegotiation, bmsr, if_neg late, physts]
        refine ⟨⟨_, accessed.trans later⟩, fun _ => Or.inr (Or.inr (Or.inr ?_))⟩
        rw [later.ops, List.countP_append, count]
        exact Nat.le_add_left ..
      · obtain ⟨seems, more, shown, later, last, rfl⟩ := poll_accessed physts
        simp only [confirmAutoNegotiation, bmsr, if_neg late, physts]
        have all := accessed.trans later
        refine ⟨⟨_, all.ops, all.flags, all.spdRev⟩, fun _ => ?_⟩
        have knownLast : PhyOp.read .physts shown ∈ final.ops := by
          rw [later.ops]
          exact List.mem_append_right _ last
        simp only [Bool.and_eq_true] at seems
        exact reasons_of_link (Or.inr ⟨rfl, rfl⟩) knownLast seems.2

/-- Every retry returns 0 for a reason as well, and leaves the flags alone. -/
theorem restartNegotiation_reasons (phy : Phy) :
    (∃ ops, Accessed phy phy.restartNegotiation.2 ops) ∧
      (phy.restartNegotiation.1 = true → phy.restartNegotiation.2.Reasons) := by
  obtain ⟨_, written⟩ := phy.writePhy_accessed .bmcr
    (phyBmcr100m ||| phyBmcrAnen ||| phyBmcrDupm ||| phyBmcrRsan)
  obtain ⟨⟨ops, accessed⟩, reasons⟩ := confirmAutoNegotiation_reasons (phy.writePhy .bmcr
    (phyBmcr100m ||| phyBmcrAnen ||| phyBmcrDupm ||| phyBmcrRsan))
  exact ⟨⟨_, written.trans accessed⟩, reasons⟩

/-- `AutoNegotiation` leaves the flags alone, and returns 0 for a reason. -/
theorem autoNegotiation_reasons (phy : Phy) :
    (∃ ops, Accessed phy (phy.autoNegotiation false).2 ops) ∧
      ((phy.autoNegotiation false).1 = true → (phy.autoNegotiation false).2.Reasons) := by
  obtain ⟨⟨ops, accessed⟩, reasons⟩ := confirmAutoNegotiation_reasons phy
  simp only [autoNegotiation, Bool.false_eq_true, if_false]
  by_cases first : phy.confirmAutoNegotiation.1 = true
  · simp only [first, if_true]
    exact ⟨⟨ops, accessed⟩, fun _ => reasons first⟩
  · simp only [first, Bool.false_eq_true, if_false]
    have accesses : ∀ middle, (∃ ops, Accessed phy middle ops) →
        ∃ ops, Accessed phy (restartNegotiation middle).2 ops := by
      rintro middle ⟨earlier, before⟩
      obtain ⟨⟨more, later⟩, _⟩ := restartNegotiation_reasons middle
      exact ⟨_, before.trans later⟩
    refine ⟨Polling.poll_kept _ accesses _ ⟨ops, accessed⟩, ?_⟩
    rcases retried : Polling.poll restartNegotiation id smapAutonegoRetry
      phy.confirmAutoNegotiation.2 with ⟨_ | value, final⟩
    · simp
    · intro _
      obtain ⟨passes, middle, _, last⟩ := Polling.poll_found (fun _ => True) (fun _ _ => trivial)
        trivial retried
      have reason := (restartNegotiation_reasons middle).2
      rw [last] at reason
      exact reason passes

/-- A read adds one access. -/
theorem readPhy_extends (reg : PhyReg) (phy : Phy) : Extends phy (readPhy reg phy).2 := by
  obtain ⟨_, _, accessed⟩ := readPhy_accessed reg phy
  exact accessed.extends

/-- A write adds one access. -/
theorem writePhy_extends (phy : Phy) (reg : PhyReg) (data : BitVec 32) :
    Extends phy (phy.writePhy reg data) := by
  obtain ⟨_, accessed⟩ := phy.writePhy_accessed reg data
  exact accessed.extends

/-- Setting flags adds no access. -/
theorem setFlags_extends (phy : Phy) (flags : BitVec 32) : Extends phy (phy.setFlags flags) :=
  ⟨List.prefix_rfl, rfl⟩

/-- `PhySetDSP` only adds accesses to those known. -/
theorem phySetDSP_extends (phy : Phy) : Extends phy phy.phySetDSP := by
  have ids : Extends phy (readPhy .phyidr2 (readPhy .phyidr1 { phy with u32TXMode := phy.mode1 }).2).2 :=
    (show Extends phy { phy with u32TXMode := phy.mode1 } from ⟨List.prefix_rfl, rfl⟩).trans
      ((readPhy_extends _ _).trans (readPhy_extends _ _))
  simp only [phySetDSP]
  split
  · exact ⟨List.prefix_rfl, rfl⟩
  · split
    · exact ids.trans (setFlags_extends _ _)
    · split
      · exact ids
      · have written := ((((((ids.trans (writePhy_extends _ (.other 0x13) 0x0001)).trans
          (writePhy_extends _ (.other 0x19) 0x1898)).trans
          (writePhy_extends _ (.other 0x1f) 0x0000)).trans
          (writePhy_extends _ (.other 0x1d) 0x5040)).trans
          (writePhy_extends _ (.other 0x1e) 0x008c)).trans
          (writePhy_extends _ (.other 0x13) 0x0000)).trans (readPhy_extends .physts _)
        split
        · exact (written.trans (writePhy_extends _ (.other 0x1a) 0x0104)).trans (setFlags_extends _ _)
        · exact written.trans (setFlags_extends _ _)

/-- A step that marks the link valid only for a reason. -/
structure Justified (before after : Phy) : Prop where
  later : Extends before after
  link : after.linkValid = true → before.linkValid = true ∨ after.Reasons

/-- Two stretches that mark the link valid only for a reason do so together: a reason seen
in the first stays one. -/
theorem Justified.trans {first second third : Phy} (early : Justified first second)
    (late : Justified second third) : Justified first third := by
  refine ⟨early.later.trans late.later, ?_⟩
  intro valid
  rcases late.link valid with before | reasons
  · exact (early.link before).imp_right fun reasons => reasons.later late.later
  · exact Or.inr reasons

/-- Accesses change no flags, so they need no reason. -/
theorem Accessed.justified {before after : Phy} {ops : List PhyOp}
    (accessed : Accessed before after ops) : Justified before after := by
  refine ⟨accessed.extends, fun valid => Or.inl ?_⟩
  rwa [linkValid, ← accessed.flags]

/-- With a reason at hand anything may be marked. -/
theorem Reasons.justified {before after : Phy} (reasons : before.Reasons)
    (later : Extends before after) : Justified before after :=
  ⟨later, fun _ => Or.inr (reasons.later later)⟩

/-- The other flags do not mark the link. -/
theorem setFlags_justified (phy : Phy) {flags : BitVec 32} (other : flags &&& smapFLinkvalid = 0#32) :
    Justified phy (phy.setFlags flags) := by
  refine ⟨⟨List.prefix_rfl, rfl⟩, fun valid => Or.inl ?_⟩
  have same : (phy.u32Flags ||| flags) &&& smapFLinkvalid = phy.u32Flags &&& smapFLinkvalid := by
    rw [BitVec.and_or_distrib_right, other, BitVec.or_zero]
  simpa only [linkValid, hasBit, setFlags, same] using valid

/-- Clearing flags needs no reason either. -/
theorem clearFlags_justified (phy : Phy) (flags : BitVec 32) : Justified phy (phy.clearFlags flags) := by
  refine ⟨⟨List.prefix_rfl, rfl⟩, fun valid => Or.inl ?_⟩
  simp only [linkValid, hasBit, clearFlags, bne_iff_ne, ne_eq] at valid ⊢
  intro unset
  apply valid
  rw [BitVec.and_assoc, BitVec.and_comm (~~~flags), ← BitVec.and_assoc, unset]
  exact BitVec.zero_and

/-- `validlink` only adds accesses to those known. -/
theorem validlink_extends (phy : Phy) : Extends phy phy.validlink := by
  refine Extends.trans ?_ (phySetDSP_extends _)
  exact ⟨List.prefix_rfl, rfl⟩

/-- `ForceSPD` marks the link valid for what it read, whichever flag it checks beside
`SMAP_F_LINKVALID`. -/
theorem forceSPD_justified (phy : Phy) (speed : BitVec 32) {check : BitVec 32}
    (other : check &&& smapFLinkvalid = 0#32) : Justified phy (phy.forceSPD speed check) := by
  obtain ⟨_, written⟩ := phy.writePhy_accessed .bmcr speed
  exact written.justified.trans (setFlags_justified _ other)

/-- A forced speed marks the link valid only for a reason.

Proof: by induction on the depth of the recursion. Each turn polls for the link, and marks
it valid for the read that showed it; where the poll runs out it clears a flag and goes
on, or looks once more. -/
theorem confirmForceSPD_justified (calls : Nat) (phy : Phy) :
    Justified phy (confirmForceSPD calls phy) := by
  induction calls generalizing phy with
  | zero => exact (Accessed.refl phy).justified
  | succ calls inductionHypothesis =>
    rcases bmsr : Polling.poll (readPhy .bmsr) (hasBit · phyBmsrLink) smapForcemodeTimeout phy with
      ⟨_ | value, polled⟩
    · obtain ⟨ops, accessed, _⟩ := poll_ran_out bmsr
      apply accessed.justified.trans
      simp only [confirmForceSPD, bmsr]
      by_cases first : hasBit polled.u32Flags smapFCheckForce100m = true
      · rw [if_pos first]
        have forced := (clearFlags_justified polled smapFCheckForce100m).trans
          (forceSPD_justified _ phyBmcr10m (by decide : smapFCheckForce10m &&& smapFLinkvalid = 0#32))
        exact forced.trans (inductionHypothesis _)
      · rw [if_neg first]
        by_cases second : hasBit polled.u32Flags smapFCheckForce10m = true
        · rw [if_pos second]
          obtain ⟨read, same, last⟩ := readPhy_accessed .physts (polled.clearFlags smapFCheckForce10m)
          have cleared := (clearFlags_justified polled smapFCheckForce10m).trans last.justified
          apply cleared.trans
          by_cases up : hasBit (readPhy .physts (polled.clearFlags smapFCheckForce10m)).1 phyStsLink = true
          · rw [if_pos up]
            rw [same] at up
            have known : PhyOp.read .physts read ∈
                (readPhy .physts (polled.clearFlags smapFCheckForce10m)).2.ops := by
              rw [last.ops]
              simp
            have reasons := reasons_of_link (Or.inr ⟨rfl, rfl⟩) known up
            exact reasons.justified ((setFlags_extends _ _).trans (validlink_extends _))
          · rw [if_neg up]
            exact (Accessed.refl _).justified
        · rw [if_neg second]
          exact (Accessed.refl _).justified
    · obtain ⟨seems, ops, read, accessed, member, rfl⟩ := poll_accessed bmsr
      simp only [confirmForceSPD, bmsr]
      have known : PhyOp.read .bmsr read ∈ polled.ops := by
        rw [accessed.ops]
        exact List.mem_append_right _ member
      have reasons := reasons_of_link (Or.inl ⟨rfl, rfl⟩) known seems
      exact accessed.justified.trans (reasons.justified (validlink_extends polled))

/-- `PhyInit` marks the link valid only for a reason. -/
theorem phyInit_justified (phy : Phy) : Justified phy (phy.phyInit false).2 := by
  have reset : Justified phy phy.phyReset.2 := by
    obtain ⟨_, written⟩ := phy.writePhy_accessed .bmcr
      (phyBmcrRst ||| phyBmcr100m ||| phyBmcrAnen ||| phyBmcrDupm)
    obtain ⟨ops, accessed⟩ : ∃ ops, Accessed phy phy.phyReset.2 ops := by
      refine Polling.poll_kept (fun middle => ∃ ops, Accessed phy middle ops) ?_ _ ⟨_, written⟩
      rintro middle ⟨ops, accessed⟩
      obtain ⟨_, _, more⟩ := readPhy_accessed .bmcr middle
      exact ⟨_, accessed.trans more⟩
    exact accessed.justified
  simp only [phyInit]
  by_cases done : phy.phyReset.1 = true
  · simp only [done, Bool.not_true, Bool.false_eq_true, if_false]
    apply reset.trans
    obtain ⟨⟨ops, accessed⟩, reasons⟩ := autoNegotiation_reasons phy.phyReset.2
    by_cases negotiated : (phy.phyReset.2.autoNegotiation false).1 = true
    · simp only [negotiated, if_true]
      exact accessed.justified.trans ((reasons negotiated).justified
        ((setFlags_extends _ _).trans (phySetDSP_extends _)))
    · simp only [negotiated, Bool.false_eq_true, if_false]
      exact accessed.justified.trans ((forceSPD_justified _ phyBmcr100m
        (by decide : smapFCheckForce100m &&& smapFLinkvalid = 0#32)).trans
        (confirmForceSPD_justified 2 _))
  · simp only [done, Bool.not_false, if_true]
    exact reset

end Phy

/-- `SMap_Init` leaves the link marked valid only if a completed read showed it
up, or from SPD revision 0x13 on auto-negotiation complete; unless a read of a
status register failed, or `PHYSTS` was polled in vain.

Proof: every function that `SMap_Init` calls marks the link valid only for a reason, and
reasons are not lost as more accesses are made. At the start no link is marked. -/
theorem valid_link_reasons (staCtrl : Nat → BitVec 32) (spdRev : Nat) (mode1 : BitVec 32)
    (nodeAddr : Bool) (valid : (sMapInit staCtrl spdRev mode1 nodeAddr).2.linkValid = true) :
    let ops := (sMapInit staCtrl spdRev mode1 nodeAddr).2.ops
    (∃ op ∈ ops, op.showsLink) ∨ (0x13 ≤ spdRev ∧ ∃ op ∈ ops, op.showsNegotiated) ∨
      (∃ op ∈ ops, op.failsStatus) ∨ smapLoopCount ≤ ops.countP (PhyOp.readsReg .physts) := by
  cases nodeAddr with
  | false => simp [sMapInit, Phy.linkValid, hasBit] at valid
  | true =>
    have init := Phy.phyInit_justified ⟨staCtrl, 0, [], 0, 0, e3FdxEnable ||| e3IgnoreSqe |||
      e3Media100m ||| e3Rxfifo2k ||| e3Txfifo1k ||| e3Txreq0Single ||| e3Txreq1Single, spdRev⟩
    have reasons := (init.link valid).resolve_left (by simp [Phy.linkValid, hasBit])
    have revision := init.later.spdRev
    simp only [Phy.Reasons, revision] at reasons
    exact reasons

/-- A PHY that answers every read alike, with a link and complete auto-negotiation. -/
theorem valid_link_reasons_linked :
    (sMapInit (fun _ => 0x00358000) 0x12 0 true).2.linkValid = true ∧
      ∃ op ∈ (sMapInit (fun _ => 0x00358000) 0x12 0 true).2.ops, op.showsLink := by
  have valid : (sMapInit (fun _ => 0x00358000) 0x12 0 true).2.linkValid = true := by decide +kernel
  refine ⟨valid, (valid_link_reasons _ _ _ _ valid).resolve_right ?_⟩
  decide +kernel

/-- Complete auto-negotiation without a link, on an SPD of revision 0x13. -/
theorem valid_link_unwitnessed :
    ¬ ∀ staCtrl spdRev mode1 nodeAddr, (sMapInit staCtrl spdRev mode1 nodeAddr).2.linkValid = true →
      ∃ op ∈ (sMapInit staCtrl spdRev mode1 nodeAddr).2.ops, op.showsLink := by
  intro witnessed
  have valid : (sMapInit (fun _ => 0x00208000) 0x13 0 true).2.linkValid = true := by decide +kernel
  have shown := witnessed _ _ _ _ valid
  revert shown
  decide +kernel

end Ps2Eth.SmapLinux
