import Ps2Eth.SmapLinux.ForcedSpeed
import Ps2Eth.SmapLinux.ValidLink

/-!
# The mode that the link leaves in the EMAC

`EMAC3Init` of `smap-linux/smap.c` presets the mode register, auto-negotiation and the
forced speeds change fields of it, `PhySetDSP` takes a copy into `u32TXMode`, and
`EMAC3ReInit` writes the copy back at the end of `SMap_Init`. The copy is taken only
where the link counts as established.

So whatever the PHY answers the register ends in one of six modes, each for a reason
that the accesses to the PHY show.
-/

namespace Ps2Eth.SmapLinux

/-- `SMAP_F_OPENED`, the flag that `SMap_Open` leaves set. -/
def smapFOpened : BitVec 32 := 1#32 <<< 0

/-- The fields that no link changes. -/
def fixedMode : BitVec 32 := e3Rxfifo2k ||| e3Txfifo1k ||| e3Txreq0Single ||| e3Txreq1Single

/-- What `EMAC3Init` writes to the mode register. -/
def presetMode : BitVec 32 :=
  e3FdxEnable ||| e3IgnoreSqe ||| e3Media100m ||| e3Rxfifo2k ||| e3Txfifo1k ||| e3Txreq0Single |||
    e3Txreq1Single

/-- The modes: none, the preset one, and the two duplexes at 100 or at 10 Mbit/s. -/
inductive EmacMode where
  | unset
  | preset
  | full (fast : Bool)
  | half (fast : Bool)
deriving DecidableEq

/-- The field of the speed. -/
def mediaOf (fast : Bool) : BitVec 32 := if fast then e3Media100m else e3Media10m

/-- The mode in the register: pause frames with full duplex, and the SQE test with half
duplex at 10 Mbit/s. -/
def EmacMode.bits : EmacMode → BitVec 32
  | unset => 0
  | preset => presetMode
  | full fast =>
      fixedMode ||| e3FdxEnable ||| e3FlowctrlEnable ||| e3AllowPf ||| e3IgnoreSqe ||| mediaOf fast
  | half true => fixedMode ||| e3IgnoreSqe ||| mediaOf true
  | half false => fixedMode ||| mediaOf false

/-- A mode that is set is not zero. -/
theorem EmacMode.bits_eq_zero_iff (mode : EmacMode) : mode.bits = 0 ↔ mode = .unset := by
  cases mode with
  | unset => decide
  | preset => decide
  | full fast => cases fast <;> decide
  | half fast => cases fast <;> decide

/-- Auto-negotiation leaves full or half duplex. -/
theorem negotiatedMode_preset (iPhyVal : BitVec 32) :
    Phy.negotiatedMode iPhyVal presetMode =
      if hasBit iPhyVal phyStsFdx then (EmacMode.full (!hasBit iPhyVal phySts10m)).bits
      else (EmacMode.half (!hasBit iPhyVal phySts10m)).bits := by
  unfold Phy.negotiatedMode
  cases hasBit iPhyVal phyStsFdx with
  | true => cases hasBit iPhyVal phySts10m <;> decide
  | false => cases hasBit iPhyVal phySts10m <;> decide

/-- A forced speed leaves half duplex. -/
theorem forcedMode_preset {flags : BitVec 32} {fast : Bool}
    (check100 : hasBit flags smapFCheckForce100m = fast)
    (check10 : fast = false → hasBit flags smapFCheckForce10m = true) :
    Phy.forcedMode flags presetMode = (EmacMode.half fast).bits := by
  unfold Phy.forcedMode
  rw [check100]
  cases fast with
  | true =>
    rw [if_pos rfl]
    decide
  | false =>
    rw [check10 rfl]
    decide

/-- A read of the status that completed showed a link that was negotiated. -/
def Negotiated (phy : Phy) (full fast : Bool) : Prop :=
  ∃ value, .read .physts (some value) ∈ phy.ops ∧ hasBit value phyStsAncp = true ∧
    hasBit value phyStsLink = true ∧ hasBit value phyStsFdx = full ∧ hasBit value phySts10m = !fast

/-- A read of the status did not complete. The -1 that `ReadPhy` returns then has all bits
set, those of a link that was negotiated in full duplex at 10 Mbit/s among them. -/
def StatusFailed (phy : Phy) : Prop := .read .physts none ∈ phy.ops

/-- What counts as a link is one that was shown, or a read that failed. -/
theorem PhyOp.seesLink_eq (op : PhyOp) : op.seesLink = (op.showsLink || op.failsStatus) := by
  cases op with
  | write reg data completed => rfl
  | read reg value =>
    cases reg with
    | bmsr | physts =>
      cases value with
      | none => simp only [seesLink, showsLink, failsStatus, Phy.returned]; decide
      | some value => simp [seesLink, showsLink, failsStatus, Phy.returned]
    | bmcr | phyidr1 | phyidr2 | other number => rfl

/-- A speed was forced, and an access of a kind was made behind it. -/
def Forced (kind : PhyOp → Bool) (phy : Phy) (fast : Bool) : Prop :=
  ∃ early completed later,
    phy.ops = early ++ .write .bmcr (if fast then phyBmcr100m else phyBmcr10m) completed :: later ∧
      later.any kind = true

/-- Why the link left a mode. The preset one stays where the status of the link is not
asked for, or is asked for in vain. A read that failed is a reason too, for full duplex at
10 Mbit/s or behind a forced speed: the driver takes its -1 for what a PHY would answer. -/
def EmacMode.Reason (phy : Phy) : EmacMode → Prop
  | unset => True
  | preset => 0x13 ≤ phy.spdRev ∨ smapLoopCount ≤ phy.ops.countP (PhyOp.readsReg .physts)
  | full fast => Negotiated phy true fast ∨ fast = false ∧ StatusFailed phy
  | half fast =>
      Negotiated phy false fast ∨ Forced PhyOp.showsLink phy fast ∨ Forced PhyOp.failsStatus phy fast

/-- What was shown stays among the accesses. -/
theorem Negotiated.later {before after : Phy} {full fast : Bool}
    (negotiated : Negotiated before full fast) (later : Phy.Extends before after) :
    Negotiated after full fast := by
  obtain ⟨value, member, shown⟩ := negotiated
  exact ⟨value, later.ops.subset member, shown⟩

/-- A speed that was forced stays so, with what was seen behind it. -/
theorem Forced.later {kind : PhyOp → Bool} {before after : Phy} {fast : Bool}
    (forced : Forced kind before fast) (later : Phy.Extends before after) :
    Forced kind after fast := by
  obtain ⟨early, completed, reads, ops, seen⟩ := forced
  obtain ⟨more, grown⟩ := later.ops
  refine ⟨early, completed, reads ++ more, ?_, ?_⟩
  · rw [← grown, ops, List.append_assoc, List.cons_append]
  · rw [List.any_append, seen, Bool.true_or]

/-- The link behind a forced speed was shown, or a read failed there. -/
theorem Forced.shown_or_failed {phy : Phy} {fast : Bool} (forced : Forced PhyOp.seesLink phy fast) :
    Forced PhyOp.showsLink phy fast ∨ Forced PhyOp.failsStatus phy fast := by
  obtain ⟨early, completed, later, ops, seen⟩ := forced
  obtain ⟨op, member, sees⟩ := List.any_eq_true.mp seen
  rw [PhyOp.seesLink_eq, Bool.or_eq_true] at sees
  rcases sees with shows | fails
  · exact Or.inl ⟨early, completed, later, ops, List.any_eq_true.mpr ⟨op, member, shows⟩⟩
  · exact Or.inr ⟨early, completed, later, ops, List.any_eq_true.mpr ⟨op, member, fails⟩⟩

/-- A reason stays a reason. -/
theorem EmacMode.Reason.later {before after : Phy} {mode : EmacMode} (reason : mode.Reason before)
    (later : Phy.Extends before after) : mode.Reason after := by
  cases mode with
  | unset => trivial
  | preset =>
    refine reason.imp (fun late => later.spdRev ▸ late) fun inVain => ?_
    exact Nat.le_trans inVain later.ops.sublist.countP_le
  | full fast => exact reason.imp (·.later later) fun ⟨slow, failed⟩ => ⟨slow, later.ops.subset failed⟩
  | half fast => exact reason.imp (·.later later) (Or.imp (·.later later) (·.later later))

namespace Phy

/-- Accesses were made that leave the driver's fields alone. -/
structure Still (before after : Phy) : Prop where
  later : Extends before after
  flags : after.u32Flags = before.u32Flags
  txMode : after.u32TXMode = before.u32TXMode
  mode1 : after.mode1 = before.mode1

/-- Doing nothing leaves the driver's own fields as they are. -/
theorem Still.refl (phy : Phy) : Still phy phy := ⟨⟨List.prefix_rfl, rfl⟩, rfl, rfl, rfl⟩

/-- Two stretches that leave the driver's fields alone leave them alone together. -/
theorem Still.trans {first second third : Phy} (early : Still first second)
    (late : Still second third) : Still first third :=
  ⟨early.later.trans late.later, late.flags.trans early.flags, late.txMode.trans early.txMode,
    late.mode1.trans early.mode1⟩

/-- Waiting for the PHY leaves the transmit mode that the driver remembers. -/
theorem waitComplete_txMode (phy : Phy) : phy.waitComplete.2.u32TXMode = phy.u32TXMode :=
  Polling.poll_kept (fun after : Phy => after.u32TXMode = phy.u32TXMode) (fun _ kept => kept) _ rfl

/-- A read of a PHY register leaves the driver's fields alone. -/
theorem readPhy_still (reg : PhyReg) (phy : Phy) : Still phy (readPhy reg phy).2 := by
  obtain ⟨value, -, handled⟩ := readPhy_handled reg phy
  refine ⟨handled.accessed.extends, handled.accessed.flags, ?_, handled.mode1⟩
  have ready := phy.waitComplete_txMode
  have done := phy.waitComplete.2.waitComplete_txMode
  simp only [readPhy]
  split
  · exact ready
  · split
    · exact done.trans ready
    · exact done.trans ready

/-- A write of a PHY register leaves the driver's fields alone as well. -/
theorem writePhy_still (phy : Phy) (reg : PhyReg) (data : BitVec 32) :
    Still phy (phy.writePhy reg data) := by
  obtain ⟨completed, handled⟩ := phy.writePhy_handled reg data
  refine ⟨handled.accessed.extends, handled.accessed.flags, ?_, handled.mode1⟩
  have ready := phy.waitComplete_txMode
  have done := phy.waitComplete.2.waitComplete_txMode
  simp only [writePhy]
  split
  · exact ready
  · exact done.trans ready

/-- So does a polling loop. -/
theorem poll_still {reg : PhyReg} {test : BitVec 32 → Bool} {turns : Nat} {phy after : Phy}
    {result : Option (BitVec 32)}
    (polled : Polling.poll (readPhy reg) test turns phy = (result, after)) : Still phy after := by
  have kept : Still phy (Polling.poll (readPhy reg) test turns phy).2 :=
    Polling.poll_kept (Still phy) (fun middle still => still.trans (readPhy_still reg middle)) turns
      (Still.refl phy)
  rwa [polled] at kept

/-- What `ConfirmAutoNegotiation` leaves of the preset mode: with 0 a mode that has a
reason, else the preset mode. -/
structure Confirmed (before : Phy) (result : Bool × Phy) : Prop where
  later : Extends before result.2
  flags : result.2.u32Flags = before.u32Flags
  txMode : result.2.u32TXMode = before.u32TXMode
  negotiated : result.1 = true →
    ∃ mode ≠ EmacMode.unset, result.2.mode1 = mode.bits ∧ mode.Reason result.2
  refused : result.1 = false → result.2.mode1 = presetMode

/-- `ConfirmAutoNegotiation` keeps the preset mode unless it returns 0, and then the mode
it sets has a reason. The proof follows its branches: the poll that runs out, the chip
revision that is not asked any further, and the partner's abilities bit by bit. -/
theorem confirmAutoNegotiation_confirmed {phy : Phy} (preset : phy.mode1 = presetMode) :
    Confirmed phy phy.confirmAutoNegotiation := by
  rcases bmsr : Polling.poll (readPhy .bmsr) (hasBit · phyBmsrAncp) smapAutonegoTimeout phy with
    ⟨_ | status, polled⟩
  · have still := poll_still bmsr
    simp only [confirmAutoNegotiation, bmsr]
    exact ⟨still.later, still.flags, still.txMode, by simp, fun _ => still.mode1.trans preset⟩
  · have still := poll_still bmsr
    by_cases late : 0x13 ≤ polled.spdRev
    · simp only [confirmAutoNegotiation, bmsr, if_pos late]
      refine ⟨still.later, still.flags, still.txMode, fun _ => ?_, by simp⟩
      exact ⟨.preset, by decide, still.mode1.trans preset, Or.inl late⟩
    · rcases physts : Polling.poll (readPhy .physts)
        (fun iPhyVal => hasBit iPhyVal phyStsAncp && hasBit iPhyVal phyStsLink) smapLoopCount polled with
        ⟨_ | iPhyVal, final⟩
      · obtain ⟨more, accessed, count⟩ := poll_ran_out physts
        have all := still.trans (poll_still physts)
        simp only [confirmAutoNegotiation, bmsr, if_neg late, physts]
        refine ⟨all.later, all.flags, all.txMode, fun _ => ?_, by simp⟩
        refine ⟨.preset, by decide, all.mode1.trans preset, Or.inr ?_⟩
        rw [accessed.ops, List.countP_append, count]
        exact Nat.le_add_left _ _
      · obtain ⟨seems, more, shown, accessed, last, rfl⟩ := poll_accessed physts
        have all := still.trans (poll_still physts)
        simp only [confirmAutoNegotiation, bmsr, if_neg late, physts]
        refine ⟨⟨all.later.ops, all.later.spdRev⟩, all.flags, all.txMode, fun _ => ?_, by simp⟩
        have known : PhyOp.read .physts shown ∈ final.ops := by
          rw [accessed.ops]
          exact List.mem_append_right _ last
        simp only [Bool.and_eq_true] at seems
        have mode : negotiatedMode (returned shown) final.mode1 = _ :=
          (congrArg (negotiatedMode (returned shown)) (all.mode1.trans preset)).trans
            (negotiatedMode_preset _)
        cases shown with
        | none =>
          -- The read failed: all bits of the -1 are set.
          exact ⟨.full false, by simp, mode, Or.inr ⟨rfl, known⟩⟩
        | some value =>
          cases duplex : hasBit value phyStsFdx with
          | true =>
            rw [returned, Option.getD_some, duplex, if_pos rfl] at mode
            exact ⟨.full _, by simp, mode, Or.inl ⟨value, known, seems.1, seems.2, duplex, by simp⟩⟩
          | false =>
            rw [returned, Option.getD_some, duplex, if_neg (by decide)] at mode
            exact ⟨.half _, by simp, mode, Or.inl ⟨value, known, seems.1, seems.2, duplex, by simp⟩⟩

/-- What is confirmed behind quiet accesses. -/
theorem Confirmed.behind {before middle : Phy} {result : Bool × Phy} (later : Extends before middle)
    (flags : middle.u32Flags = before.u32Flags) (txMode : middle.u32TXMode = before.u32TXMode)
    (confirmed : Confirmed middle result) : Confirmed before result :=
  ⟨later.trans confirmed.later, confirmed.flags.trans flags, confirmed.txMode.trans txMode,
    confirmed.negotiated, confirmed.refused⟩

/-- So does a restart of the negotiation, a write of BMCR before the same function. -/
theorem restartNegotiation_confirmed {phy : Phy} (preset : phy.mode1 = presetMode) :
    Confirmed phy phy.restartNegotiation := by
  have still := phy.writePhy_still .bmcr (phyBmcr100m ||| phyBmcrAnen ||| phyBmcrDupm ||| phyBmcrRsan)
  exact (confirmAutoNegotiation_confirmed (still.mode1.trans preset)).behind still.later still.flags
    still.txMode

/-- The retries of `AutoNegotiation` keep the preset mode up to the first that is
confirmed. -/
theorem retries_confirmed (turns : Nat) {phy : Phy} (preset : phy.mode1 = presetMode) :
    Confirmed phy ((Polling.poll restartNegotiation id turns phy).1.isSome,
      (Polling.poll restartNegotiation id turns phy).2) := by
  induction turns generalizing phy with
  | zero =>
    have still := Still.refl phy
    exact ⟨still.later, still.flags, still.txMode, by simp [Polling.poll], fun _ => preset⟩
  | succ turns inductionHypothesis =>
    have once := restartNegotiation_confirmed preset
    rw [Polling.poll]
    by_cases passes : phy.restartNegotiation.1 = true
    · rw [id_eq, if_pos passes]
      exact ⟨once.later, once.flags, once.txMode, fun _ => once.negotiated passes, by simp⟩
    · rw [id_eq, if_neg passes]
      have again := inductionHypothesis (once.refused (by simpa using passes))
      exact again.behind once.later once.flags once.txMode

/-- So does `AutoNegotiation` with its retries, which ends with the first call that
returns 0. -/
theorem autoNegotiation_confirmed {phy : Phy} (preset : phy.mode1 = presetMode) :
    Confirmed phy (phy.autoNegotiation false) := by
  have first := confirmAutoNegotiation_confirmed preset
  simp only [autoNegotiation, Bool.false_eq_true, if_false]
  by_cases passes : phy.confirmAutoNegotiation.1 = true
  · rw [if_pos passes]
    exact ⟨first.later, first.flags, first.txMode, fun _ => first.negotiated passes, by simp⟩
  · rw [if_neg passes]
    have again := retries_confirmed smapAutonegoRetry (first.refused (by simpa using passes))
    exact again.behind first.later first.flags first.txMode

/-- The link was established in some mode, of which `u32TXMode` is the copy. The
interface is not opened by that. -/
structure Established (phy : Phy) : Prop where
  opened : hasBit phy.u32Flags smapFOpened = false
  established : hasBit phy.u32Flags smapFLinkestablish = true
  mode : ∃ mode ≠ EmacMode.unset, phy.u32TXMode = mode.bits ∧ mode.Reason phy

/-- The link was not established, nor marked valid. -/
structure Dark (phy : Phy) : Prop where
  opened : hasBit phy.u32Flags smapFOpened = false
  established : hasBit phy.u32Flags smapFLinkestablish = false
  valid : phy.linkValid = false
  txMode : phy.u32TXMode = 0

/-- Once the link is established `PhySetDSP` takes a copy of the mode, accesses the PHY,
and may mark the link valid. -/
theorem phySetDSP_still {phy : Phy} (established : hasBit phy.u32Flags smapFLinkestablish = true) :
    ∃ after, Still { phy with u32TXMode := phy.mode1 } after ∧
      (phy.phySetDSP = after ∨ phy.phySetDSP = after.setFlags smapFLinkvalid) := by
  have ids := (readPhy_still .phyidr1 { phy with u32TXMode := phy.mode1 }).trans
    (readPhy_still .phyidr2 _)
  simp only [phySetDSP, established, Bool.not_true, Bool.false_eq_true, if_false]
  split
  · exact ⟨_, ids, Or.inr rfl⟩
  · split
    · exact ⟨_, ids, Or.inl rfl⟩
    · have written := ((((((ids.trans (writePhy_still _ (.other 0x13) 0x0001)).trans
        (writePhy_still _ (.other 0x19) 0x1898)).trans
        (writePhy_still _ (.other 0x1f) 0x0000)).trans
        (writePhy_still _ (.other 0x1d) 0x5040)).trans
        (writePhy_still _ (.other 0x1e) 0x008c)).trans
        (writePhy_still _ (.other 0x13) 0x0000)).trans (readPhy_still .physts _)
      split
      · exact ⟨_, written.trans (writePhy_still _ (.other 0x1a) 0x0104), Or.inr rfl⟩
      · exact ⟨_, written, Or.inr rfl⟩

/-- So the copy is of a mode that has a reason. -/
theorem phySetDSP_established {phy : Phy} (opened : hasBit phy.u32Flags smapFOpened = false)
    (established : hasBit phy.u32Flags smapFLinkestablish = true)
    (mode : ∃ mode ≠ EmacMode.unset, phy.mode1 = mode.bits ∧ mode.Reason phy) :
    Established phy.phySetDSP := by
  obtain ⟨left, some, bits, reason⟩ := mode
  obtain ⟨after, still, outcome⟩ := phySetDSP_still established
  have copy : after.u32TXMode = left.bits := still.txMode.trans bits
  have flags : hasBit after.u32Flags smapFLinkestablish = true := by
    rw [still.flags]
    exact established
  have closed : hasBit after.u32Flags smapFOpened = false := by
    rw [still.flags]
    exact opened
  have later : Extends phy after := ⟨still.later.ops, still.later.spdRev⟩
  rcases outcome with outcome | outcome
  · rw [outcome]
    exact ⟨closed, flags, left, some, copy, reason.later later⟩
  · rw [outcome]
    refine ⟨?_, ?_, left, some, copy, reason.later (later.trans (setFlags_extends _ _))⟩
    · rw [setFlags, hasBit_or, closed]
      decide
    · rw [setFlags, hasBit_or, flags, Bool.true_or]

/-- The label `validlink`, with one speed under test for which a link was seen. -/
theorem validlink_established {phy : Phy} {fast : Bool} (preset : phy.mode1 = presetMode)
    (opened : hasBit phy.u32Flags smapFOpened = false)
    (check100 : hasBit phy.u32Flags smapFCheckForce100m = fast)
    (check10 : fast = false → hasBit phy.u32Flags smapFCheckForce10m = true)
    (forced : Forced PhyOp.seesLink phy fast) : Established phy.validlink := by
  have mode : forcedMode phy.u32Flags phy.mode1 = (EmacMode.half fast).bits := by
    rw [preset]
    exact forcedMode_preset check100 check10
  have closed : hasBit ((phy.u32Flags &&& ~~~(smapFCheckForce100m ||| smapFCheckForce10m)) |||
      smapFLinkestablish) smapFOpened = false := by
    rw [hasBit_or, hasBit_kept _ (by decide), opened]
    decide
  refine phySetDSP_established closed (hasBit_added _ (by decide))
    ⟨.half fast, by simp, mode, Or.inr ?_⟩
  exact (forced.later ⟨List.prefix_rfl, rfl⟩).shown_or_failed

/-- A speed is under test: it was written, and nothing was established before. -/
structure Testing (phy : Phy) (fast : Bool) : Prop where
  preset : phy.mode1 = presetMode
  dark : Dark phy
  check100 : hasBit phy.u32Flags smapFCheckForce100m = fast
  check10 : hasBit phy.u32Flags smapFCheckForce10m = !fast
  written : ∃ early completed later,
    phy.ops = early ++ .write .bmcr (if fast then phyBmcr100m else phyBmcr10m) completed :: later

/-- Quiet accesses leave it so. -/
theorem Testing.still {before after : Phy} {fast : Bool} (testing : Testing before fast)
    (still : Still before after) : Testing after fast := by
  obtain ⟨preset, ⟨opened, established, valid, txMode⟩, check100, check10, written⟩ := testing
  obtain ⟨early, completed, later, ops⟩ := written
  obtain ⟨more, grown⟩ := still.later.ops
  refine ⟨still.mode1.trans preset, ⟨?_, ?_, ?_, still.txMode.trans txMode⟩, ?_, ?_,
    early, completed, later ++ more, ?_⟩
  · rw [still.flags, opened]
  · rw [still.flags, established]
  · rw [linkValid, still.flags]
    exact valid
  · rw [still.flags, check100]
  · rw [still.flags, check10]
  · rw [← grown, ops, List.append_assoc, List.cons_append]

/-- A link seen in a further read. -/
theorem Testing.forced {before after : Phy} {fast : Bool} (testing : Testing before fast)
    {reads : List PhyOp} (accessed : after.ops = before.ops ++ reads)
    (seen : reads.any PhyOp.seesLink = true) : Forced PhyOp.seesLink after fast := by
  obtain ⟨early, completed, later, ops⟩ := testing.written
  refine ⟨early, completed, later ++ reads, ?_, ?_⟩
  · rw [accessed, ops, List.append_assoc, List.cons_append]
  · rw [List.any_append, seen, Bool.or_true]

/-- `ForceSPD100M` and `ForceSPD10M` put a speed under test. -/
theorem forceSPD_testing {phy : Phy} (fast : Bool) (preset : phy.mode1 = presetMode)
    (dark : Dark phy) (check100 : hasBit phy.u32Flags smapFCheckForce100m = false)
    (check10 : hasBit phy.u32Flags smapFCheckForce10m = false) :
    Testing (phy.forceSPD (if fast then phyBmcr100m else phyBmcr10m)
      (if fast then smapFCheckForce100m else smapFCheckForce10m)) fast := by
  have still := phy.writePhy_still .bmcr (if fast then phyBmcr100m else phyBmcr10m)
  obtain ⟨completed, handled⟩ := phy.writePhy_handled .bmcr (if fast then phyBmcr100m else phyBmcr10m)
  obtain ⟨opened, established, valid, txMode⟩ := dark
  have other (mask : BitVec 32) : hasBit (phy.forceSPD (if fast then phyBmcr100m else phyBmcr10m)
      (if fast then smapFCheckForce100m else smapFCheckForce10m)).u32Flags mask =
        (hasBit phy.u32Flags mask ||
          hasBit (if fast then smapFCheckForce100m else smapFCheckForce10m) mask) := by
    rw [forceSPD, setFlags, hasBit_or, still.flags]
  refine ⟨still.mode1.trans preset, ⟨?_, ?_, ?_, still.txMode.trans txMode⟩, ?_, ?_,
    phy.ops, completed, [], handled.accessed.ops⟩
  · rw [other, opened]
    cases fast <;> decide
  · rw [other, established]
    cases fast <;> decide
  · rw [linkValid, other, ← linkValid, valid]
    cases fast <;> decide
  · rw [other, check100]
    cases fast <;> decide
  · rw [other, check10]
    cases fast <;> decide

/-- A flag of the speed under test is cleared. -/
theorem Dark.clearFlags {phy : Phy} (dark : Dark phy) {check : BitVec 32}
    (first : ~~~check &&& smapFOpened = smapFOpened)
    (other : ~~~check &&& smapFLinkestablish = smapFLinkestablish)
    (mark : ~~~check &&& smapFLinkvalid = smapFLinkvalid) : Dark (phy.clearFlags check) := by
  obtain ⟨opened, established, valid, txMode⟩ := dark
  refine ⟨?_, ?_, ?_, txMode⟩
  · rw [Phy.clearFlags, hasBit_kept _ first, opened]
  · rw [Phy.clearFlags, hasBit_kept _ other, established]
  · rw [linkValid, Phy.clearFlags, hasBit_kept _ mark]
    exact valid

/-- What `ConfirmForceSPD` makes of the link in the end, at 10 Mbit/s. -/
def lastLook (phy : Phy) : Phy :=
  let iPhyVal := (phy.clearFlags smapFCheckForce10m).readPhy .physts
  if hasBit iPhyVal.1 phyStsLink then (iPhyVal.2.setFlags smapFCheckForce10m).validlink
  else iPhyVal.2

/-- The last look establishes the link at 10 Mbit/s where it sees one, and leaves none
else. -/
theorem lastLook_outcome {phy : Phy} (testing : Testing phy false) :
    Established phy.lastLook ∨ Dark phy.lastLook := by
  obtain ⟨read, same, accessed⟩ := readPhy_accessed .physts (phy.clearFlags smapFCheckForce10m)
  have still := readPhy_still .physts (phy.clearFlags smapFCheckForce10m)
  have ⟨opened, established, valid, txMode⟩ := testing.dark.clearFlags
    (by decide : ~~~smapFCheckForce10m &&& smapFOpened = smapFOpened) (by decide) (by decide)
  simp only [lastLook]
  by_cases up : hasBit ((phy.clearFlags smapFCheckForce10m).readPhy .physts).1 phyStsLink = true
  · rw [if_pos up]
    left
    have forced :
        Forced PhyOp.seesLink ((phy.clearFlags smapFCheckForce10m).readPhy .physts).2 false := by
      refine testing.forced accessed.ops ?_
      rw [same] at up
      simpa [PhyOp.seesLink] using up
    have check100 : hasBit (((phy.clearFlags smapFCheckForce10m).readPhy .physts).2.setFlags
        smapFCheckForce10m).u32Flags smapFCheckForce100m = false := by
      rw [setFlags, hasBit_or, still.flags, Phy.clearFlags, hasBit_kept _ (by decide),
        testing.check100]
      decide
    have closed : hasBit (((phy.clearFlags smapFCheckForce10m).readPhy .physts).2.setFlags
        smapFCheckForce10m).u32Flags smapFOpened = false := by
      rw [setFlags, hasBit_or, still.flags, opened]
      decide
    exact validlink_established (still.mode1.trans testing.preset) closed check100
      (fun _ => hasBit_added _ (by decide)) (forced.later (setFlags_extends _ _))
  · rw [if_neg up]
    right
    refine ⟨?_, ?_, ?_, still.txMode.trans txMode⟩
    · rw [still.flags, opened]
    · rw [still.flags, established]
    · rw [linkValid, still.flags]
      exact valid

/-- A forced speed establishes the link in half duplex, or leaves it dark. -/
theorem confirmForceSPD_outcome (calls : Nat) {phy : Phy} {fast : Bool}
    (testing : Testing phy fast) :
    Established (confirmForceSPD calls phy) ∨ Dark (confirmForceSPD calls phy) := by
  induction calls generalizing phy fast with
  | zero => exact Or.inr testing.dark
  | succ calls inductionHypothesis =>
    rcases bmsr : Polling.poll (readPhy .bmsr) (hasBit · phyBmsrLink) smapForcemodeTimeout phy with
      ⟨_ | value, polled⟩
    · have polls := testing.still (poll_still bmsr)
      simp only [confirmForceSPD, bmsr, polls.check100, polls.check10]
      cases fast with
      | true =>
        have dark := polls.dark.clearFlags
          (by decide : ~~~smapFCheckForce100m &&& smapFOpened = smapFOpened) (by decide) (by decide)
        have slower : Testing ((polled.clearFlags smapFCheckForce100m).forceSPD phyBmcr10m
            smapFCheckForce10m) false :=
          forceSPD_testing false polls.preset dark (hasBit_cleared _ (by decide))
            ((hasBit_kept _ (by decide)).trans polls.check10)
        exact inductionHypothesis slower
      | false => exact lastLook_outcome polls
    · obtain ⟨seems, ops, read, accessed, member, rfl⟩ := poll_accessed bmsr
      have polls := testing.still (poll_still bmsr)
      have forced : Forced PhyOp.seesLink polled fast := by
        refine testing.forced accessed.ops (List.any_eq_true.mpr ⟨_, member, seems⟩)
      simp only [confirmForceSPD, bmsr]
      refine Or.inl (validlink_established polls.preset polls.dark.opened polls.check100 ?_ forced)
      rintro rfl
      exact polls.check10

/-- `PhyInit` establishes the link in a mode that has a reason, or leaves it dark.

Proof: by the three ways out: the reset fails and nothing was set, the negotiation
succeeds with a mode that it gives a reason for, or the two forced speeds are tried. -/
theorem phyInit_outcome {phy : Phy} (preset : phy.mode1 = presetMode) (flags : phy.u32Flags = 0)
    (txMode : phy.u32TXMode = 0) :
    Established (phy.phyInit false).2 ∨ Dark (phy.phyInit false).2 := by
  have reset : Still phy phy.phyReset.2 := by
    refine Polling.poll_kept (Still phy) ?_ _ ?_
    · exact fun middle still => still.trans (readPhy_still .bmcr middle)
    · exact writePhy_still _ _ _
  simp only [phyInit]
  by_cases done : phy.phyReset.1 = true
  · simp only [done, Bool.not_true, Bool.false_eq_true, if_false]
    have confirmed := autoNegotiation_confirmed (reset.mode1.trans preset)
    have clear : (phy.phyReset.2.autoNegotiation false).2.u32Flags = 0 :=
      confirmed.flags.trans (reset.flags.trans flags)
    by_cases negotiated : (phy.phyReset.2.autoNegotiation false).1 = true
    · simp only [negotiated, if_true]
      obtain ⟨mode, some, bits, reason⟩ := confirmed.negotiated negotiated
      have closed : hasBit ((phy.phyReset.2.autoNegotiation false).2.u32Flags |||
          smapFLinkestablish) smapFOpened = false := by
        rw [hasBit_or, clear]
        decide
      refine Or.inl (phySetDSP_established closed (hasBit_added _ (by decide))
        ⟨mode, some, bits, ?_⟩)
      exact reason.later (setFlags_extends _ _)
    · simp only [negotiated, Bool.false_eq_true, if_false]
      have dark : Dark (phy.phyReset.2.autoNegotiation false).2 := by
        refine ⟨?_, ?_, ?_, confirmed.txMode.trans (reset.txMode.trans txMode)⟩
        · rw [clear]
          decide
        · rw [clear]
          decide
        · rw [linkValid, clear]
          decide
      have testing : Testing ((phy.phyReset.2.autoNegotiation false).2.forceSPD phyBmcr100m
          smapFCheckForce100m) true := by
        refine forceSPD_testing true (confirmed.refused (by simpa using negotiated)) dark ?_ ?_
        · rw [clear]
          decide
        · rw [clear]
          decide
      exact confirmForceSPD_outcome 2 testing
  · simp only [done, Bool.not_false, if_true]
    refine Or.inr ⟨?_, ?_, ?_, reset.txMode.trans txMode⟩
    · rw [reset.flags, flags]
      decide
    · rw [reset.flags, flags]
      decide
    · rw [linkValid, reset.flags, flags]
      decide

end Phy

/-- What `SMap_Init` leaves in the mode register: one of the six modes, for a reason that
the accesses show, and none exactly where the link was not established, which is then
not valid. -/
structure ModeLeft (phy : Phy) : Prop where
  mode : ∃ mode : EmacMode, phy.mode1 = mode.bits ∧ mode.Reason phy
  unset : phy.mode1 = 0 ↔ hasBit phy.u32Flags smapFLinkestablish = false
  valid : phy.linkValid = true → phy.mode1 ≠ 0

/-- The copy that `EMAC3ReInit` writes is a mode for a reason, or the register is zero. -/
theorem modeLeft_of_outcome {phy : Phy} (outcome : phy.Established ∨ phy.Dark) :
    ModeLeft { phy with mode1 := phy.u32TXMode } := by
  rcases outcome with ⟨-, established, mode, some, bits, reason⟩ | ⟨-, dark, valid, txMode⟩
  · have set : phy.u32TXMode ≠ 0 := by
      rw [bits]
      exact mt mode.bits_eq_zero_iff.mp some
    constructor
    · exact ⟨mode, bits, reason.later ⟨List.prefix_rfl, rfl⟩⟩
    · exact iff_of_false set (by simp [established])
    · exact fun _ => set
  · constructor
    · exact ⟨.unset, txMode, trivial⟩
    · exact iff_of_true txMode dark
    · intro marked
      have same : phy.linkValid = true := marked
      rw [valid] at same
      cases same

/-- A PHY that answers every read with full duplex at 100 Mbit/s. -/
example : (sMapInit (fun _ => 0x00358000) 0x12 0 true).2.mode1 = (EmacMode.full true).bits := by
  decide +kernel

end Ps2Eth.SmapLinux
