import Mathlib.Data.BitVec
import Ps2Eth.Lib.Polling
import Ps2Eth.Lib.Runs

/-!
# Bringing up the PHY in the smap driver

`InitPHY` of `smap/smap.c`, with `_smap_read_phy` and `RestartAutoNegotiation`. It
polls without a bound and jumps back from several places, so it is given as a
machine: where it stands tells the next access, and the answer to the access
tells where it goes on. An access is a read or a write of a PHY register, a read
of `NetDevStopFlag`, or the update of the EMAC mode register at the end.

A read that times out answers nothing and counts as zero. The bits of the PHY are
those that `smap-linux/smap.c` defines for the same chip. Delays and prints are
left out; the register reads in the arguments of prints are made.
-/

namespace Ps2Eth.Smap.InitPHY

/-- A PHY register, by its number. -/
abbrev PhyReg := Nat

/-- `SMAP_DsPHYTER_BMCR`, basic mode control: reset, negotiation and the fixed mode. -/
def dsPhyterBmcr : PhyReg := 0x00
/-- `SMAP_DsPHYTER_BMSR`, basic mode status: the abilities, the link and the end of
negotiation. -/
def dsPhyterBmsr : PhyReg := 0x01
/-- `SMAP_DsPHYTER_PHYIDR1`: the first half of the chip's identifier. -/
def dsPhyterPhyidr1 : PhyReg := 0x02
/-- `SMAP_DsPHYTER_PHYIDR2`: its second half, with the revision. -/
def dsPhyterPhyidr2 : PhyReg := 0x03
/-- `SMAP_DsPHYTER_ANAR`: the technologies that are advertised to the partner. -/
def dsPhyterAnar : PhyReg := 0x04
/-- `SMAP_DsPHYTER_ANLPAR`: what the link partner advertises. -/
def dsPhyterAnlpar : PhyReg := 0x05
/-- `SMAP_DsPHYTER_FCSCR`: the counter of false carriers. -/
def dsPhyterFcscr : PhyReg := 0x14
/-- `SMAP_DsPHYTER_RECR`: the counter of receive errors. -/
def dsPhyterRecr : PhyReg := 0x15
/-- `SMAP_DsPHYTER_PHYCTRL`, a register of the one chip that is set up. -/
def dsPhyterPhyctrl : PhyReg := 0x19
/-- `SMAP_DsPHYTER_10BTSCR`: status and control at 10 Mbit/s. -/
def dsPhyter10btscr : PhyReg := 0x1a

/-- `SMAP_PHY_BMCR_RST`: reset, which the PHY clears when it is done. -/
def phyBmcrRst : BitVec 16 := 1#16 <<< 15
/-- `SMAP_PHY_BMCR_100M`: the speed select bit. -/
def phyBmcr100m : BitVec 16 := 1#16 <<< 13
/-- `SMAP_PHY_BMCR_10M`: the same bit, clear. -/
def phyBmcr10m : BitVec 16 := 0#16 <<< 13
/-- `SMAP_PHY_BMCR_ANEN`: negotiation is enabled, and the bits of the fixed mode do not
count. -/
def phyBmcrAnen : BitVec 16 := 1#16 <<< 12
/-- `SMAP_PHY_BMCR_RSAN`: negotiation is to start again. -/
def phyBmcrRsan : BitVec 16 := 1#16 <<< 9
/-- `SMAP_PHY_BMCR_DUPM`: full duplex, in a fixed mode. -/
def phyBmcrDupm : BitVec 16 := 1#16 <<< 8
/-- `SMAP_PHY_BMSR_ANCP`: negotiation is complete, whether the link is up or not. -/
def phyBmsrAncp : BitVec 16 := 1#16 <<< 5
/-- The remote fault bit, which the driver has as the number 0x10. -/
def phyBmsrRemoteFault : BitVec 16 := 0x10
/-- `SMAP_PHY_BMSR_LINK`: the basic status shows a link. -/
def phyBmsrLink : BitVec 16 := 1#16 <<< 2
/-- `SMAP_PHY_ANAR_TX_FD`: full duplex at 100 Mbit/s. -/
def phyAnarTxFd : BitVec 16 := 0x100
/-- `SMAP_PHY_ANAR_TX`: half duplex at 100 Mbit/s. -/
def phyAnarTx : BitVec 16 := 0x080
/-- `SMAP_PHY_ANAR_10_FD`: full duplex at 10 Mbit/s. -/
def phyAnar10Fd : BitVec 16 := 0x040
/-- `SMAP_PHY_ANAR_10`: half duplex at 10 Mbit/s. -/
def phyAnar10 : BitVec 16 := 0x020
/-- `SMAP_PHY_IDR1_VAL`: what the first identifier register holds in the chip that the
driver knows. -/
def phyIdr1Val : BitVec 16 := 0x2000
/-- `SMAP_PHY_IDR2_VAL`: what the second one holds, but for the revision. -/
def phyIdr2Val : BitVec 16 := 0x5c20
/-- `SMAP_PHY_IDR2_MSK`: all but the revision. -/
def phyIdr2Msk : BitVec 16 := 0xfff0
/-- `SMAP_PHY_IDR2_REV_MSK`: the revision of the chip, in its second identifier. -/
def phyIdr2RevMsk : BitVec 16 := 0x000f

/-- `SMAP_E3_FDX_ENABLE`: full duplex, in the mode register of the EMAC. -/
def e3FdxEnable : BitVec 32 := 1#32 <<< 31
/-- `SMAP_E3_FLOWCTRL_ENABLE`: integrated flow control by pause frames. -/
def e3FlowctrlEnable : BitVec 32 := 1#32 <<< 28
/-- `SMAP_E3_ALLOW_PF`: pause frames are allowed. -/
def e3AllowPf : BitVec 32 := 1#32 <<< 27

/-- `SMAP_E3_PHY_DATA_BITSFT`: where the data stands in the station control register. -/
def e3PhyDataBitsft : Nat := 16
/-- `SMAP_E3_PHY_OP_COMP`: the access to the PHY is complete. -/
def e3PhyOpComp : BitVec 32 := 1#32 <<< 15

/-- `value & mask`, as a condition. -/
def hasBits {width : Nat} (value mask : BitVec width) : Bool := value &&& mask != 0

section ReadPhy

variable (staCtrl : Nat → BitVec 32)

/-- One turn of the loop of `_smap_read_phy`, which reads `SMAP_R_EMAC3_STA_CTRL`
up to three times: the value of the last read if all had the complete bit. -/
def readTurn (position : Nat) : Option (BitVec 32) × Nat :=
  if hasBits (staCtrl position) e3PhyOpComp then
    if hasBits (staCtrl (position + 1)) e3PhyOpComp then
      if hasBits (staCtrl (position + 2)) e3PhyOpComp then
        (some (staCtrl (position + 2)), position + 3)
      else (none, position + 3)
    else (none, position + 2)
  else (none, position + 1)

/-- `_smap_read_phy`: the data, if the read completed within 100 turns. It returns
zero otherwise. -/
def smapReadPhy (position : Nat) : Option (BitVec 16) × Nat :=
  let polled := Polling.poll (readTurn staCtrl) Option.isSome 100 position
  (polled.1.join.map fun value : BitVec 32 => (value >>> e3PhyDataBitsft).setWidth 16, polled.2)

/-- A value that `_smap_read_phy` returns was read with the complete bit. -/
theorem smapReadPhy_completed {position : Nat} {data : BitVec 16}
    (read : (smapReadPhy staCtrl position).1 = some data) :
    ∃ later, hasBits (staCtrl later) e3PhyOpComp = true ∧
      data = (staCtrl later >>> e3PhyDataBitsft).setWidth 16 := by
  rcases polled : Polling.poll (readTurn staCtrl) Option.isSome 100 position with ⟨found, final⟩
  have joined : found.join.map (fun value : BitVec 32 => (value >>> e3PhyDataBitsft).setWidth 16) =
      some data := by
    simpa only [smapReadPhy, polled] using read
  cases found with
  | none => simp at joined
  | some value =>
    obtain ⟨-, middle, -, turn⟩ := Polling.poll_found (fun _ => True) (fun _ _ => trivial) trivial polled
    cases value with
    | none => simp at joined
    | some value =>
      unfold readTurn at turn
      split at turn
      · split at turn
        · split at turn
          next complete =>
            obtain ⟨same, -⟩ := Prod.mk.inj turn
            obtain rfl := Option.some.inj same
            exact ⟨middle + 2, complete, (Option.some.inj joined).symm⟩
          next => simp at turn
        · simp at turn
      · simp at turn

/-- `_smap_read_phy` may return any data, and may time out. -/
theorem smapReadPhy_any (answer : Option (BitVec 16)) :
    ∃ staCtrl, (smapReadPhy staCtrl 0).1 = answer := by
  cases answer with
  | none =>
    refine ⟨fun _ => 0, ?_⟩
    decide
  | some data =>
    refine ⟨fun _ => data.setWidth 32 <<< 16 ||| e3PhyOpComp, ?_⟩
    have complete : hasBits (data.setWidth 32 <<< 16 ||| e3PhyOpComp) e3PhyOpComp = true := by
      unfold hasBits e3PhyOpComp
      rw [bne_iff_ne]
      intro none
      have bit := congrArg (fun value : BitVec 32 => value.getLsbD 15) none
      simp at bit
    have upper : ((data.setWidth 32 <<< 16 ||| e3PhyOpComp) >>> e3PhyDataBitsft).setWidth 16 = data := by
      have shifted : e3PhyOpComp >>> e3PhyDataBitsft = 0#32 := by decide
      rw [BitVec.ushiftRight_or_distrib, shifted, BitVec.or_zero, e3PhyDataBitsft]
      ext position inside
      have low : ¬ 16 + position < 16 := by omega
      have high : 16 + position < 32 := by omega
      have whole : position < 32 := by omega
      simp [low, high, whole, BitVec.getLsbD_eq_getElem inside]
    simp [smapReadPhy, Polling.poll, readTurn, complete, upper]

end ReadPhy

/-- What the function does next with the world outside: an access to a PHY register, the
look at `NetDevStopFlag` while it waits, or the update of the EMAC mode at the end. -/
inductive Access where
  | read (reg : PhyReg)
  | write (reg : PhyReg) (data : BitVec 16)
  | stopFlag
  | mode1
deriving DecidableEq

/-- An access with what it found: `none` for a register read that timed out. -/
inductive Event where
  | read (reg : PhyReg) (value : Option (BitVec 16))
  | write (reg : PhyReg) (data : BitVec 16)
  | stopFlag (set : Bool)
  | mode1
deriving DecidableEq

namespace Event

/-- The access that an event answers. -/
def access : Event → Access
  | .read reg _ => .read reg
  | .write reg data => .write reg data
  | .stopFlag _ => .stopFlag
  | .mode1 => .mode1

/-- What `_smap_read_phy` returned: the value read, or 0 after a timeout. -/
def value : Event → BitVec 16
  | .read _ value => value.getD 0
  | _ => 0

/-- Whether `NetDevStopFlag` was found set. -/
def stop : Event → Bool
  | .stopFlag set => set
  | _ => false

end Event

/-- `EnableVerboseOutput`, `EnableAutoNegotiation` and `EnablePinStrapConfig`, which the
arguments of the module set and no call changes. -/
structure Options where
  enableVerboseOutput : Bool
  enableAutoNegotiation : Bool
  enablePinStrapConfig : Bool

/-- Where `InitPHY` stands, with the locals in use there. The loop under `WaitLink`
is `waitStop` and `waitRead`; the one under `RepeatAutoNegoProcess` goes from
`negoStop` to `restart`; the attempts at a fixed speed are the `force` places.
`dump` holds the part of `RegDump` that is read, `chip` a write to make and those
to follow. -/
inductive Pc where
  | reset
  | resetRead
  | fixed
  | waitStop (i : Nat)
  | waitRead (i : Nat)
  | autoOff
  | autoBmsr
  | autoAnar
  | autoWrite (anar : BitVec 16)
  | autoStart
  | strap
  | showBmcr
  | showAnar
  | negoStop (retries i : Nat)
  | negoRead (retries : Nat)
  | negoLink (retries i : Nat)
  | negoLinkStop (retries i : Nat)
  | restartShow (retries : Nat)
  | restart (retries : Nat)
  | force (fast : Bool)
  | forceStop (fast : Bool)
  | forceLink (fast : Bool) (i : Nat)
  | forceLinkStop (fast : Bool) (i : Nat)
  | dump (regDump : List (BitVec 16))
  | errors (regDump counts : List (BitVec 16))
  | late
  | chip (regDump : List (BitVec 16)) (write : PhyReg × BitVec 16) (rest : List (PhyReg × BitVec 16))
  | finish (regDump : List (BitVec 16))
  /-- It returned 0, or -1. -/
  | returned (ok : Bool)
deriving DecidableEq

/-- A call of `InitPHY`: where it stands and the data it works on. -/
structure Call where
  pc : Pc
  linkStatus : Bool
  linkMode : BitVec 8
  smapConfiguration : BitVec 32
  mode1 : BitVec 32

/-- The BMCR value of fixed mode. -/
def fixedBmcr (smapConfiguration : BitVec 32) : BitVec 16 :=
  (if hasBits smapConfiguration 0x180 then phyBmcr100m else 0) |||
    (if hasBits smapConfiguration 0x140 then phyBmcrDupm else 0)

/-- `SmapConfiguration` without the abilities that the PHY does not report. -/
def restrict (smapConfiguration : BitVec 32) (bmsr : BitVec 16) : BitVec 32 :=
  let full100 := if hasBits bmsr 0x4000 then smapConfiguration else smapConfiguration &&& 0xfffffeff
  let half100 := if hasBits bmsr 0x2000 then full100 else full100 &&& 0xffffff7f
  let full10 := if hasBits bmsr 0x1000 then half100 else half100 &&& 0xffffffbf
  if hasBits bmsr 0x0800 then full10 else full10 &&& 0xffffffdf

/-- The value written to ANAR. -/
def anarOf (smapConfiguration : BitVec 32) (anar : BitVec 16) : BitVec 16 :=
  (smapConfiguration &&& 0x5e0).setWidth 16 ||| anar &&& 0x1f

/-- A register of `RegDump`, which holds the first six in their order. -/
def dumped (regDump : List (BitVec 16)) (reg : PhyReg) : BitVec 16 := regDump.getD reg 0

/-- The test for the National Semiconductor DP83846A. -/
def isDP83846A (regDump : List (BitVec 16)) : Bool :=
  dumped regDump dsPhyterPhyidr1 == phyIdr1Val &&
    dumped regDump dsPhyterPhyidr2 &&& phyIdr2Msk == phyIdr2Val

/-- "If operating in 10Mbit mode". -/
def operates10 (options : Options) (regDump : List (BitVec 16)) : Bool :=
  if options.enableAutoNegotiation then
    dumped regDump dsPhyterAnar &&& (phyAnarTxFd ||| phyAnarTx ||| phyAnar10Fd ||| phyAnar10) ==
      phyAnar10
  else !hasBits (dumped regDump dsPhyterBmcr) (phyBmcrDupm ||| phyBmcr100m)

/-- The writes made for a DP83846A. -/
def chipWrites (options : Options) (regDump : List (BitVec 16)) : List (PhyReg × BitVec 16) :=
  (if operates10 options regDump then [(dsPhyter10btscr, 0x0104)] else []) ++
  if !hasBits (dumped regDump dsPhyterPhyidr2) phyIdr2RevMsk then
    [(0x13, 1), (dsPhyterPhyctrl, 0x1898), (0x1f, 0), (0x1d, 0x5040), (0x1e, 0x8c), (0x13, 0)]
  else []

/-- What the end of `InitPHY` takes for negotiated: `LinkSpeed100M`, `LinkFDX` and
`FlowControlEnabled`. -/
def negotiated (smapConfiguration : BitVec 32) (regDump : List (BitVec 16)) : Bool × Bool × Bool :=
  let bmcr := dumped regDump dsPhyterBmcr
  if hasBits bmcr phyBmcrAnen then
    let value := dumped regDump dsPhyterAnar &&& dumped regDump dsPhyterAnlpar
    (hasBits value 0x180, hasBits value 0x140, hasBits value 0x140 && hasBits value 0x400)
  else (hasBits bmcr phyBmcr100m, hasBits bmcr phyBmcrDupm, hasBits smapConfiguration 0x400)

/-- The value of `LinkMode`: one bit for the technology, and 0x40 for flow control. -/
def linkModeOf (linkSpeed100M linkFDX flowControlEnabled : Bool) : BitVec 8 :=
  (if linkSpeed100M then (if linkFDX then 8 else 4) else (if linkFDX then 2 else 1)) |||
    (if flowControlEnabled then 0x40 else 0)

/-- The update of `SMAP_R_EMAC3_MODE1`: the bits for duplex and flow control are replaced,
the others stay. -/
def mode1Of (mode1 : BitVec 32) (linkFDX flowControlEnabled : Bool) : BitVec 32 :=
  (mode1 &&& 0x67ffffff) ||| (if linkFDX then e3FdxEnable else 0) |||
    (if flowControlEnabled then e3FlowctrlEnable ||| e3AllowPf else 0)

namespace Call

variable (options : Options) (call : Call)

/-- Stay with the data and go on elsewhere. -/
def goto (pc : Pc) : Call := { call with pc := pc }

/-- The next access, until the call has returned. -/
def access : Option Access :=
  match call.pc with
  | .reset => some (.write dsPhyterBmcr phyBmcrRst)
  | .fixed => some (.write dsPhyterBmcr (fixedBmcr call.smapConfiguration))
  | .autoOff | .late => some (.write dsPhyterBmcr 0)
  | .autoWrite anar => some (.write dsPhyterAnar anar)
  | .autoStart | .restart _ => some (.write dsPhyterBmcr (phyBmcrAnen ||| phyBmcrRsan))
  | .force fast => some (.write dsPhyterBmcr (if fast then phyBmcr100m else phyBmcr10m))
  | .chip _ write _ => some (.write write.1 write.2)
  | .resetRead | .strap | .showBmcr | .restartShow _ => some (.read dsPhyterBmcr)
  | .waitRead _ | .autoBmsr | .negoRead _ | .negoLink _ _ | .forceLink _ _ =>
      some (.read dsPhyterBmsr)
  | .autoAnar | .showAnar => some (.read dsPhyterAnar)
  | .dump regDump => some (.read regDump.length)
  | .errors _ counts => some (.read (if counts.length % 2 = 0 then dsPhyterFcscr else dsPhyterRecr))
  | .waitStop _ | .negoStop _ _ | .negoLinkStop _ _ | .forceStop _ | .forceLinkStop _ _ =>
      some .stopFlag
  | .finish _ => some .mode1
  | .returned _ => none

/-- The link was seen: `LinkStatus` is set, and `RegDump` is read next. -/
def linked : Call := { call with linkStatus := true, pc := .dump [] }

/-- `RestartAutoNegotiation` begins. With verbose output the registers are shown first. -/
def restartAuto (retries : Nat) : Call :=
  if options.enableVerboseOutput then call.goto (.restartShow retries) else call.goto (.restart retries)

/-- The link did not come at a fixed speed: on to 10 Mbit/s, or back to
`RepeatAutoNegoProcess`. -/
def forceFailed (fast : Bool) : Call :=
  if fast then call.goto (.force false) else call.goto (.negoStop 0 0)

/-- The writes for a DP83846A, or what is left of them. -/
def setUpChip (regDump : List (BitVec 16)) : List (PhyReg × BitVec 16) → Call
  | [] => call.goto (.finish regDump)
  | write :: rest => call.goto (.chip regDump write rest)

/-- `RegDump` is complete, and says by its identifiers whether the chip is the one that is
set up. -/
def identify (regDump : List (BitVec 16)) : Call :=
  if isDP83846A regDump then
    if options.enableAutoNegotiation then call.goto (.errors regDump [])
    else call.setUpChip regDump (chipWrites options regDump)
  else call.goto (.finish regDump)

/-- "Determine what was negotiated for." -/
def determine (regDump : List (BitVec 16)) : Call :=
  let mode := negotiated call.smapConfiguration regDump
  { call with
    linkMode := linkModeOf mode.1 mode.2.1 mode.2.2
    mode1 := mode1Of call.mode1 mode.2.1 mode.2.2
    pc := .returned true }

/-- The call after the next access, which found the value or the flag. -/
def resume (value : BitVec 16) (stop : Bool) : Call :=
  match call.pc with
  | .reset => call.goto .resetRead
  | .resetRead =>
      -- the loop's first turn has i <= 0 and returns
      if hasBits value phyBmcrRst then call.goto (.returned false)
      else if !options.enableAutoNegotiation then call.goto .fixed
      else if !options.enablePinStrapConfig then call.goto .autoOff
      else call.goto .strap
  | .fixed => call.goto (.waitStop 0)
  | .waitStop i => if stop then call.goto (.returned true) else call.goto (.waitRead (i + 1))
  | .waitRead i =>
      if hasBits value phyBmsrLink then call.linked
      else if 5 ≤ i then { call with linkStatus := false, pc := .waitStop i }
      else call.goto (.waitStop i)
  | .autoOff => call.goto .autoBmsr
  | .autoBmsr =>
      { call with
        smapConfiguration := restrict call.smapConfiguration value
        pc := .autoAnar }
  | .autoAnar => call.goto (.autoWrite (anarOf call.smapConfiguration value))
  | .autoWrite _ => call.goto .autoStart
  | .autoStart => call.goto .showBmcr
  | .strap => if !hasBits value phyBmcrAnen then call.goto (.waitStop 0) else call.goto .showBmcr
  | .showBmcr => call.goto .showAnar
  | .showAnar => call.goto (.negoStop 0 0)
  | .negoStop retries i =>
      if stop then call.goto (.returned true)
      else if i + 1 < 3 then call.goto (.negoStop retries (i + 1))
      else call.goto (.negoRead retries)
  | .negoRead retries =>
      if value &&& (phyBmsrAncp ||| phyBmsrRemoteFault) == phyBmsrAncp then
        call.goto (.negoLink retries 0)
      else call.restartAuto options retries
  | .negoLink retries i =>
      if hasBits value phyBmsrLink then
        if i < 20 then call.linked else call.restartAuto options retries
      else call.goto (.negoLinkStop retries i)
  | .negoLinkStop retries i =>
      if stop then call.goto (.returned true)
      else if 20 ≤ i then call.restartAuto options retries
      else call.goto (.negoLink retries (i + 1))
  | .restartShow retries => call.goto (.restart retries)
  | .restart retries =>
      if retries + 1 < 3 then call.goto (.negoStop (retries + 1) 0) else call.goto (.force true)
  | .force fast => call.goto (.forceStop fast)
  | .forceStop fast => if stop then call.goto (.returned true) else call.goto (.forceLink fast 0)
  | .forceLink fast i =>
      if hasBits value phyBmsrLink then
        if i < 30 then call.linked else call.forceFailed fast
      else call.goto (.forceLinkStop fast i)
  | .forceLinkStop fast i =>
      if stop then call.goto (.returned true)
      else if 30 ≤ i then call.forceFailed fast
      else call.goto (.forceLink fast (i + 1))
  | .dump regDump =>
      let regDump := regDump ++ [value]
      if regDump.length < 6 then call.goto (.dump regDump) else call.identify options regDump
  | .errors regDump counts =>
      let counts := counts ++ [value]
      if counts.length < 4 then call.goto (.errors regDump counts)
      else if counts.getD 3 0 != 0 || 0x11 ≤ (counts.getD 2 0).toNat then call.goto .late
      else call.setUpChip regDump (chipWrites options regDump)
  | .late => call.goto (.waitStop 0)
  | .chip regDump _ rest => call.setUpChip regDump rest
  | .finish regDump => call.determine regDump
  | .returned _ => call

/-- One access of `InitPHY`, if it is the one due. -/
def step (event : Event) : Option Call :=
  if call.access = some event.access then some (call.resume options event.value event.stop) else none

end Call

/-- A call of `InitPHY` has just been made, with the given `SmapConfiguration`. -/
structure Called (smapConfiguration : BitVec 32) (call : Call) : Prop where
  pc : call.pc = .reset
  smapConfiguration : call.smapConfiguration = smapConfiguration

/-- The accesses of a run. -/
def history (steps : List (Call × Event)) : List Event := steps.map Prod.snd

/-- Before the first step nothing has happened. -/
@[simp] theorem history_nil : history [] = [] := rfl

/-- The event of the last step is the latest. -/
@[simp] theorem history_snoc (steps : List (Call × Event)) (call : Call) (event : Event) :
    history (steps ++ [(call, event)]) = history steps ++ [event] := by
  simp [history]

/-- A step answers the access that the call is at, and the call goes on with the answer. -/
theorem step_some {options : Options} {call next : Call} {event : Event}
    (taken : call.step options event = some next) :
    call.access = some event.access ∧ next = call.resume options event.value event.stop := by
  unfold Call.step at taken
  split at taken
  next due => exact ⟨due, (Option.some.inj taken).symm⟩
  next => simp at taken

/-- A read that was due is the one that was made. -/
theorem read_due {reg : PhyReg} {event : Event} (due : some (Access.read reg) = some event.access) :
    ∃ value, event = .read reg value := by
  cases event with
  | read tested value =>
    obtain rfl : reg = tested := Access.read.inj (Option.some.inj due)
    exact ⟨value, rfl⟩
  | write | stopFlag | mode1 => simp [Event.access] at due

/-- A write that was due is the one that was made. -/
theorem write_due {reg : PhyReg} {data : BitVec 16} {event : Event}
    (due : some (Access.write reg data) = some event.access) : event = .write reg data := by
  cases event with
  | write tested written =>
    obtain ⟨rfl, rfl⟩ : reg = tested ∧ data = written := Access.write.inj (Option.some.inj due)
    rfl
  | read | stopFlag | mode1 => simp [Event.access] at due

end Ps2Eth.Smap.InitPHY
