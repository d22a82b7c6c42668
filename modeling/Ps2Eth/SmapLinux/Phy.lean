import Ps2Eth.Lib.Polling

/-!
# The PHY of the smap-linux driver

The part of `smap-linux/smap.c` that brings up the link: `ReadPhy` and
`WritePhy` over `SMAP_EMAC3_STA_CTRL`, auto-negotiation with its retries, the
two forced speeds, and what `SMap_Init` leaves in the flags.

The responses of the PHY are the values read from `SMAP_EMAC3_STA_CTRL`, one
after the other, and any sequence of them is possible. Delays are left out, and
so are the debug prints, which are compiled out together with the reads in their
arguments. A C `int` from `ReadPhy` is a 32-bit word: -1 has all its bits set.
-/

namespace Ps2Eth.SmapLinux

/-- `SMAP_LOOP_COUNT`: the turns of a polling loop. -/
def smapLoopCount : Nat := 10000
/-- `SMAP_AUTONEGO_TIMEOUT`, in the turns of `ConfirmAutoNegotiation`. -/
def smapAutonegoTimeout : Nat := 3000
/-- `SMAP_AUTONEGO_RETRY`: how often a negotiation that timed out is started again. -/
def smapAutonegoRetry : Nat := 3
/-- `SMAP_FORCEMODE_TIMEOUT`, in the turns of `ConfirmForceSPD`. -/
def smapForcemodeTimeout : Nat := 1000

/-- `SMAP_F_LINKESTABLISH`: the PHY has shown a link. -/
def smapFLinkestablish : BitVec 32 := 1#32 <<< 1
/-- `SMAP_F_LINKVALID`: frames may be sent over the link. -/
def smapFLinkvalid : BitVec 32 := 1#32 <<< 2
/-- `SMAP_F_CHECK_FORCE100M`: the link behind a forced 100 Mbit/s is awaited. -/
def smapFCheckForce100m : BitVec 32 := 1#32 <<< 3
/-- `SMAP_F_CHECK_FORCE10M`: the link behind a forced 10 Mbit/s is awaited. -/
def smapFCheckForce10m : BitVec 32 := 1#32 <<< 4

/-- `E3_FDX_ENABLE`: full duplex, in the mode register of the EMAC. -/
def e3FdxEnable : BitVec 32 := 1#32 <<< 31
/-- `E3_FLOWCTRL_ENABLE`: integrated flow control by pause frames. -/
def e3FlowctrlEnable : BitVec 32 := 1#32 <<< 28
/-- `E3_ALLOW_PF`: pause frames are allowed. -/
def e3AllowPf : BitVec 32 := 1#32 <<< 27
/-- `E3_IGNORE_SQE`: the signal quality test is ignored. -/
def e3IgnoreSqe : BitVec 32 := 1#32 <<< 24
/-- `E3_MEDIA_10M`: the media field for 10 Mbit/s. -/
def e3Media10m : BitVec 32 := 0#32 <<< 22
/-- `E3_MEDIA_100M`: the media field for 100 Mbit/s. -/
def e3Media100m : BitVec 32 := 1#32 <<< 22
/-- `E3_MEDIA_MSK`: both bits of the media field. -/
def e3MediaMsk : BitVec 32 := 3#32 <<< 22
/-- `E3_RXFIFO_2K`: the receive FIFO has 2 KiB. -/
def e3Rxfifo2k : BitVec 32 := 2#32 <<< 20
/-- `E3_TXFIFO_1K`: the transmit FIFO has 1 KiB. -/
def e3Txfifo1k : BitVec 32 := 1#32 <<< 18
/-- `E3_TXREQ0_SINGLE`: one packet at a time on channel 0. -/
def e3Txreq0Single : BitVec 32 := 0#32 <<< 15
/-- `E3_TXREQ1_SINGLE`: one packet at a time on channel 1. -/
def e3Txreq1Single : BitVec 32 := 0#32 <<< 13

/-- `E3_PHY_DATA_BITSFT`: where the data stands in the station control register. -/
def e3PhyDataBitsft : Nat := 16
/-- `E3_PHY_OP_COMP`: the access to the PHY is complete. -/
def e3PhyOpComp : BitVec 32 := 1#32 <<< 15

/-- The PHY registers in use. -/
inductive PhyReg where
  | bmcr
  | bmsr
  | phyidr1
  | phyidr2
  | physts
  /-- A register named by its number. -/
  | other (number : Nat)
deriving DecidableEq

/-- `PHY_BMCR_RST`: reset, which the PHY clears when it is done. -/
def phyBmcrRst : BitVec 32 := 1#32 <<< 15
/-- `PHY_BMCR_100M`: the speed select bit. -/
def phyBmcr100m : BitVec 32 := 1#32 <<< 13
/-- `PHY_BMCR_10M`: the same bit, clear. -/
def phyBmcr10m : BitVec 32 := 0#32 <<< 13
/-- `PHY_BMCR_ANEN`: negotiation is enabled, and the bits of the fixed mode do not
count. -/
def phyBmcrAnen : BitVec 32 := 1#32 <<< 12
/-- `PHY_BMCR_RSAN`: negotiation is to start again. -/
def phyBmcrRsan : BitVec 32 := 1#32 <<< 9
/-- `PHY_BMCR_DUPM`: full duplex, in a fixed mode. -/
def phyBmcrDupm : BitVec 32 := 1#32 <<< 8
/-- `PHY_BMSR_ANCP`: negotiation is complete, whether the link is up or not. -/
def phyBmsrAncp : BitVec 32 := 1#32 <<< 5
/-- `PHY_BMSR_LINK`: the basic status shows a link. -/
def phyBmsrLink : BitVec 32 := 1#32 <<< 2
/-- `PHY_STS_ANCP`: negotiation is complete, as the status register has it. -/
def phyStsAncp : BitVec 32 := 1#32 <<< 4
/-- `PHY_STS_DUPS`: the bit of the duplex status. -/
def phyStsDups : BitVec 32 := 1#32 <<< 2
/-- `PHY_STS_FDX`: this bit in full duplex. -/
def phyStsFdx : BitVec 32 := 1#32 <<< 2
/-- `PHY_STS_HDX`: this bit in half duplex. -/
def phyStsHdx : BitVec 32 := 0#32 <<< 2
/-- `PHY_STS_SPDS`: the bit of the speed status. -/
def phyStsSpds : BitVec 32 := 1#32 <<< 1
/-- `PHY_STS_10M`: this bit at 10 Mbit/s. -/
def phySts10m : BitVec 32 := 1#32 <<< 1
/-- `PHY_STS_LINK`: the status register shows a link. -/
def phyStsLink : BitVec 32 := 1#32 <<< 0

/-- `NS_OUI`, the maker of the PHY for which the DSP is set up. -/
def nsOui : BitVec 32 := 0x080017#32
/-- `PHY_IDR1_VAL`: what the first identifier register holds in the chip that the driver
knows. -/
def phyIdr1Val : BitVec 32 := ((nsOui <<< 2) >>> 8) &&& 0xffff#32
/-- `PHY_IDR2_VMDL`: the vendor's model number. -/
def phyIdr2Vmdl : BitVec 32 := 2#32
/-- `PHY_IDR2_VAL`: what the second one holds, but for the revision. -/
def phyIdr2Val : BitVec 32 :=
  ((nsOui <<< 10) &&& 0xfc00#32) ||| ((phyIdr2Vmdl <<< 4) &&& 0x3f0#32)
/-- `PHY_IDR2_MSK`: all but the revision. -/
def phyIdr2Msk : BitVec 32 := 0xfff0#32

/-- Some bit of the mask is set. -/
def hasBit (value mask : BitVec 32) : Bool := value &&& mask != 0

/-- An access to the PHY: `none` and `false` are for one that did not complete. -/
inductive PhyOp where
  | read (reg : PhyReg) (value : Option (BitVec 32))
  | write (reg : PhyReg) (data : BitVec 32) (completed : Bool)

/-- The driver's link state, the EMAC mode register, the SPD revision and the PHY
with the accesses made so far. -/
structure Phy where
  /-- What each read of `SMAP_EMAC3_STA_CTRL` returns. -/
  staCtrl : Nat → BitVec 32
  /-- How many reads were made. -/
  staReads : Nat
  ops : List PhyOp
  u32Flags : BitVec 32
  u32TXMode : BitVec 32
  mode1 : BitVec 32
  spdRev : Nat

namespace Phy

/-- An access to the PHY is noted, behind those before it. -/
def log (phy : Phy) (op : PhyOp) : Phy := { phy with ops := phy.ops ++ [op] }

/-- Flags of `u32Flags` are set, the others stay. -/
def setFlags (phy : Phy) (flags : BitVec 32) : Phy := { phy with u32Flags := phy.u32Flags ||| flags }

/-- Flags of `u32Flags` are cleared, the others stay. -/
def clearFlags (phy : Phy) (flags : BitVec 32) : Phy :=
  { phy with u32Flags := phy.u32Flags &&& ~~~flags }

/-- `EMAC3REG_READ(SMAP_EMAC3_STA_CTRL)`: the next of the values that the register
answers. -/
def readStaCtrl (phy : Phy) : BitVec 32 × Phy :=
  (phy.staCtrl phy.staReads, { phy with staReads := phy.staReads + 1 })

/-- "Check complete bit": whether it was seen. -/
def waitComplete (phy : Phy) : Bool × Phy :=
  let waited := Polling.poll readStaCtrl (hasBit · e3PhyOpComp) smapLoopCount phy
  (waited.1.isSome, waited.2)

/-- What `ReadPhy` returns: the value, or -1. -/
def returned (value : Option (BitVec 32)) : BitVec 32 := value.getD (-1)

/-- `ReadPhy` waits for the interface, asks for the register, waits again and takes the
value from the upper half. A wait that runs out returns -1. -/
def readPhy (reg : PhyReg) (phy : Phy) : BitVec 32 × Phy :=
  let ready := phy.waitComplete
  let done := ready.2.waitComplete
  let data := done.2.readStaCtrl
  if !ready.1 then (returned none, ready.2.log (.read reg none))
  else if !done.1 then (returned none, done.2.log (.read reg none))
  else
    let value := data.1 >>> e3PhyDataBitsft
    (returned (some value), data.2.log (.read reg (some value)))

/-- `WritePhy`, whose result no caller looks at. -/
def writePhy (phy : Phy) (reg : PhyReg) (data : BitVec 32) : Phy :=
  let ready := phy.waitComplete
  let done := ready.2.waitComplete
  if !ready.1 then ready.2.log (.write reg data false)
  else done.2.log (.write reg data done.1)

/-- `PhyReset`: whether the reset was seen to be done. -/
def phyReset (phy : Phy) : Bool × Phy :=
  let phy := phy.writePhy .bmcr (phyBmcrRst ||| phyBmcr100m ||| phyBmcrAnen ||| phyBmcrDupm)
  let reset := Polling.poll (readPhy .bmcr) (fun value => !hasBit value phyBmcrRst) smapLoopCount phy
  (reset.1.isSome, reset.2)

/-- The mode that `ConfirmAutoNegotiation` sets for the negotiated speed and duplex. -/
def negotiatedMode (iPhyVal mode : BitVec 32) : BitVec 32 :=
  let duplex :=
    if hasBit iPhyVal phyStsFdx then mode ||| (e3FdxEnable ||| e3FlowctrlEnable ||| e3AllowPf)
    else
      let half := mode &&& ~~~(e3FdxEnable ||| e3FlowctrlEnable ||| e3AllowPf)
      if hasBit iPhyVal phySts10m then half &&& ~~~e3IgnoreSqe else half
  (duplex &&& ~~~e3MediaMsk) ||| (if hasBit iPhyVal phySts10m then e3Media10m else e3Media100m)

/-- `ConfirmAutoNegotiation`: whether it returns 0. A link that never shows in
`PHYSTS` is reported and returns 0 all the same. -/
def confirmAutoNegotiation (phy : Phy) : Bool × Phy :=
  match Polling.poll (readPhy .bmsr) (hasBit · phyBmsrAncp) smapAutonegoTimeout phy with
  | (none, phy) => (false, phy)
  | (some _, phy) =>
      if 0x13 ≤ phy.spdRev then (true, phy)
      else
        match Polling.poll (readPhy .physts)
          (fun iPhyVal => hasBit iPhyVal phyStsAncp && hasBit iPhyVal phyStsLink) smapLoopCount phy with
        | (none, phy) => (true, phy)
        | (some iPhyVal, phy) => (true, { phy with mode1 := negotiatedMode iPhyVal phy.mode1 })

/-- A retry of `AutoNegotiation`: negotiation is restarted by a write of BMCR and
confirmed again. -/
def restartNegotiation (phy : Phy) : Bool × Phy :=
  (phy.writePhy .bmcr (phyBmcr100m ||| phyBmcrAnen ||| phyBmcrDupm ||| phyBmcrRsan)).confirmAutoNegotiation

/-- `AutoNegotiation`: whether it returns 0. -/
def autoNegotiation (phy : Phy) (iEnableAutoNego : Bool) : Bool × Phy :=
  let phy :=
    if iEnableAutoNego then phy.writePhy .bmcr (phyBmcr100m ||| phyBmcrAnen ||| phyBmcrDupm) else phy
  let first := phy.confirmAutoNegotiation
  if first.1 then (true, first.2)
  else
    let retried := Polling.poll restartNegotiation id smapAutonegoRetry first.2
    (retried.1.isSome, retried.2)

/-- `PhySetDSP`. Of an established link the mode is remembered and the link is marked
valid; the PHY of one maker has its DSP set up before that, unless the link was valid
already. -/
def phySetDSP (phy : Phy) : Phy :=
  if !hasBit phy.u32Flags smapFLinkestablish then phy
  else
    let iID1 := { phy with u32TXMode := phy.mode1 }.readPhy .phyidr1
    let iID2 := iID1.2.readPhy .phyidr2
    let phy := iID2.2
    if !(iID1.1 == phyIdr1Val && iID2.1 &&& phyIdr2Msk == phyIdr2Val) then phy.setFlags smapFLinkvalid
    else if hasBit phy.u32Flags smapFLinkvalid then phy
    else
      let phy := phy.writePhy (.other 0x13) 0x0001
      let phy := phy.writePhy (.other 0x19) 0x1898
      let phy := phy.writePhy (.other 0x1f) 0x0000
      let phy := phy.writePhy (.other 0x1d) 0x5040
      let phy := phy.writePhy (.other 0x1e) 0x008c
      let phy := phy.writePhy (.other 0x13) 0x0000
      let iPhyVal := phy.readPhy .physts
      let phy :=
        if iPhyVal.1 &&& (phyStsDups ||| phyStsSpds ||| phyStsLink) ==
            phyStsHdx ||| phySts10m ||| phyStsLink then
          iPhyVal.2.writePhy (.other 0x1a) 0x0104
        else iPhyVal.2
      phy.setFlags smapFLinkvalid

/-- The mode that `ConfirmForceSPD` sets for the speed under test. -/
def forcedMode (flags mode : BitVec 32) : BitVec 32 :=
  let half := mode &&& ~~~(e3FdxEnable ||| e3FlowctrlEnable ||| e3AllowPf ||| e3MediaMsk)
  if hasBit flags smapFCheckForce100m then half ||| e3Media100m
  else if hasBit flags smapFCheckForce10m then (half &&& ~~~e3IgnoreSqe) ||| e3Media10m
  else half

/-- The label `validlink` of `ConfirmForceSPD`. -/
def validlink (phy : Phy) : Phy :=
  let phy := { phy with mode1 := forcedMode phy.u32Flags phy.mode1 }
  ((phy.clearFlags (smapFCheckForce100m ||| smapFCheckForce10m)).setFlags smapFLinkestablish).phySetDSP

/-- `ForceSPD100M` and `ForceSPD10M` up to `ConfirmForceSPD`. -/
def forceSPD (phy : Phy) (speed check : BitVec 32) : Phy := (phy.writePhy .bmcr speed).setFlags check

/-- `ConfirmForceSPD`, where `calls` bounds how often it is entered: it enters
itself again through `ForceSPD10M`. -/
def confirmForceSPD : Nat → Phy → Phy
  | 0, phy => phy
  | calls + 1, phy =>
      match Polling.poll (readPhy .bmsr) (hasBit · phyBmsrLink) smapForcemodeTimeout phy with
      | (some _, phy) => phy.validlink
      | (none, phy) =>
          if hasBit phy.u32Flags smapFCheckForce100m then
            confirmForceSPD calls
              ((phy.clearFlags smapFCheckForce100m).forceSPD phyBmcr10m smapFCheckForce10m)
          else if hasBit phy.u32Flags smapFCheckForce10m then
            let iPhyVal := (phy.clearFlags smapFCheckForce10m).readPhy .physts
            if hasBit iPhyVal.1 phyStsLink then (iPhyVal.2.setFlags smapFCheckForce10m).validlink
            else iPhyVal.2
          else phy

/-- `ForceSPD100M` forces 100 Mbit/s, and goes on to 10 Mbit/s where that shows no
link. -/
def forceSPD100M (phy : Phy) : Phy :=
  confirmForceSPD 2 (phy.forceSPD phyBmcr100m smapFCheckForce100m)

/-- `PhyInit`: whether it returns 0. -/
def phyInit (phy : Phy) (iReset : Bool) : Bool × Phy :=
  let reset := phy.phyReset
  if !reset.1 then (false, reset.2)
  else if iReset then (true, reset.2)
  else
    let negotiated := reset.2.autoNegotiation false
    if negotiated.1 then (true, (negotiated.2.setFlags smapFLinkestablish).phySetDSP)
    else (true, negotiated.2.forceSPD100M)

/-- `EMAC3Init`, as far as the link is concerned. -/
def emac3Init (phy : Phy) (iReset : Bool) : Phy :=
  ({ phy with mode1 := e3FdxEnable ||| e3IgnoreSqe ||| e3Media100m ||| e3Rxfifo2k ||| e3Txfifo1k |||
      e3Txreq0Single ||| e3Txreq1Single }.phyInit iReset).2

end Phy

/-- The access reads the register. -/
def PhyOp.readsReg (reg : PhyReg) : PhyOp → Bool
  | .read tested _ => tested = reg
  | .write _ _ _ => false

namespace Phy

/-- Accesses were made, and nothing else happened. -/
structure Accessed (before after : Phy) (ops : List PhyOp) : Prop where
  ops : after.ops = before.ops ++ ops
  flags : after.u32Flags = before.u32Flags
  spdRev : after.spdRev = before.spdRev

/-- Without an access nothing changes. -/
theorem Accessed.refl (phy : Phy) : Accessed phy phy [] := ⟨by simp, rfl, rfl⟩

/-- Accesses made one after the other are the accesses of the whole. -/
theorem Accessed.trans {first second third : Phy} {earlier later : List PhyOp}
    (early : Accessed first second earlier) (late : Accessed second third later) :
    Accessed first third (earlier ++ later) := by
  refine ⟨?_, late.flags.trans early.flags, late.spdRev.trans early.spdRev⟩
  rw [late.ops, early.ops, List.append_assoc]

/-- Noting an access is that access and nothing else. -/
theorem accessed_log (phy : Phy) (op : PhyOp) : Accessed phy (phy.log op) [op] := ⟨rfl, rfl, rfl⟩

/-- Waiting for the complete bit is no access. -/
theorem waitComplete_accessed (phy : Phy) : Accessed phy phy.waitComplete.2 [] := by
  refine Polling.poll_kept (fun after => Accessed phy after []) ?_ _ (Accessed.refl phy)
  rintro after ⟨ops, flags, spdRev⟩
  exact ⟨ops, flags, spdRev⟩

/-- `ReadPhy` makes one access and returns its value. -/
theorem readPhy_accessed (reg : PhyReg) (phy : Phy) :
    ∃ value, (readPhy reg phy).1 = returned value ∧
      Accessed phy (readPhy reg phy).2 [.read reg value] := by
  have ready := phy.waitComplete_accessed
  have done := ready.trans phy.waitComplete.2.waitComplete_accessed
  simp only [readPhy]
  by_cases isReady : phy.waitComplete.1 = true
  · by_cases isDone : phy.waitComplete.2.waitComplete.1 = true
    · simp only [isReady, isDone, Bool.not_true, Bool.false_eq_true, if_false]
      refine ⟨_, rfl, ?_⟩
      have read : Accessed phy phy.waitComplete.2.waitComplete.2.readStaCtrl.2 [] :=
        ⟨done.ops, done.flags, done.spdRev⟩
      exact read.trans (accessed_log _ _)
    · simp only [isReady, isDone, Bool.not_true, Bool.not_false, Bool.false_eq_true, if_false, if_true]
      exact ⟨none, rfl, done.trans (accessed_log _ _)⟩
  · simp only [isReady, Bool.not_false, if_true]
    exact ⟨none, rfl, ready.trans (accessed_log _ _)⟩

/-- `WritePhy` makes one access, which is completed or not. -/
theorem writePhy_accessed (phy : Phy) (reg : PhyReg) (data : BitVec 32) :
    ∃ completed, Accessed phy (phy.writePhy reg data) [.write reg data completed] := by
  have ready := phy.waitComplete_accessed
  have done := ready.trans phy.waitComplete.2.waitComplete_accessed
  simp only [writePhy]
  by_cases isReady : phy.waitComplete.1 = true
  · simp only [isReady, Bool.not_true, Bool.false_eq_true, if_false]
    exact ⟨_, done.trans (accessed_log _ _)⟩
  · simp only [isReady, Bool.not_false, if_true]
    exact ⟨false, ready.trans (accessed_log _ _)⟩

section Poll

variable {reg : PhyReg} {test : BitVec 32 → Bool} {turns : Nat} {phy after : Phy}

/-- A polling loop that ends on a value made the access that returned it. -/
theorem poll_accessed {value : BitVec 32}
    (found : Polling.poll (readPhy reg) test turns phy = (some value, after)) :
    test value = true ∧ ∃ ops read, Accessed phy after ops ∧ .read reg read ∈ ops ∧
      returned read = value := by
  obtain ⟨passes, middle, ⟨ops, accessed⟩, last⟩ := Polling.poll_found
    (fun middle => ∃ ops, Accessed phy middle ops)
    (by
      rintro middle ⟨ops, accessed⟩
      obtain ⟨read, _, more⟩ := readPhy_accessed reg middle
      exact ⟨_, accessed.trans more⟩)
    ⟨[], Accessed.refl phy⟩ found
  obtain ⟨read, same, more⟩ := readPhy_accessed reg middle
  rw [last] at same more
  exact ⟨passes, _, read, accessed.trans more, by simp, same.symm⟩

/-- A polling loop that runs out made an access in every turn. -/
theorem poll_ran_out (ranOut : Polling.poll (readPhy reg) test turns phy = (none, after)) :
    ∃ ops, Accessed phy after ops ∧ ops.countP (PhyOp.readsReg reg) = turns := by
  have counted := Polling.poll_exhausted
    (fun turn middle => ∃ ops, Accessed phy middle ops ∧ ops.countP (PhyOp.readsReg reg) = turn)
    (by
      rintro turn middle ⟨ops, accessed, count⟩ _
      obtain ⟨read, _, more⟩ := readPhy_accessed reg middle
      refine ⟨_, accessed.trans more, ?_⟩
      rw [List.countP_append, count]
      simp [PhyOp.readsReg])
    ⟨[], Accessed.refl phy, rfl⟩ ranOut
  simpa using counted

end Poll

end Phy

/-- `SMap_Init` on a cleared driver; `nodeAddr` tells whether `GetNodeAddr` finds
a MAC address with the right checksum. -/
def sMapInit (staCtrl : Nat → BitVec 32) (spdRev : Nat) (mode1 : BitVec 32) (nodeAddr : Bool) :
    Bool × Phy :=
  let phy : Phy := ⟨staCtrl, 0, [], 0, 0, mode1, spdRev⟩
  if !nodeAddr then (false, phy)
  else
    let phy := phy.emac3Init false
    (true, { phy with mode1 := phy.u32TXMode })

end Ps2Eth.SmapLinux
