import Ps2Eth.Smap.TxAccounting
import Ps2Eth.Smap.References

/-!
# The interrupt handler thread of the smap driver

`IntrHandlerThread` waits for events, and in each turn stops or starts the
device, serves the interrupt sources, runs `HandleTxReqs` and `HandleTxIntr`,
re-enables interrupts and checks the link. `Dev9IntrCb` disables all sources and
signals the thread. The transmit path is the two-thread machine; every step here
is one of its steps or none.

`InitPHY` is seen from outside: it writes `LinkStatus` any number of times and
returns. `HandleRxIntr` is seen only by whether it received something.
-/

namespace Ps2Eth.Smap

/-- The interrupt sources of the device, of `DEV9_SMAP_INTR_MASK`. -/
structure IntrBits where
  emac3 : Bool
  rxend : Bool
  rxdnv : Bool
  txdnv : Bool
deriving DecidableEq

namespace IntrBits

/-- No source of interrupts is enabled, or pending. -/
def none : IntrBits := ⟨false, false, false, false⟩

/-- The sources that are in one of the two, as when further ones are enabled. -/
def union (bits others : IntrBits) : IntrBits where
  emac3 := bits.emac3 || others.emac3
  rxend := bits.rxend || others.rxend
  rxdnv := bits.rxdnv || others.rxdnv
  txdnv := bits.txdnv || others.txdnv

/-- The sources that are in both, as when the latched ones are masked. -/
def inter (bits others : IntrBits) : IntrBits where
  emac3 := bits.emac3 && others.emac3
  rxend := bits.rxend && others.rxend
  rxdnv := bits.rxdnv && others.rxdnv
  txdnv := bits.txdnv && others.txdnv

end IntrBits

/-- Where `IntrHandlerThread` stands, with its locals: `EFBits`, `IntrReg` and
`ResetCounterFlag`. -/
inductive Control where
  | wait
  | stop (efBits : EventFlag)
  | start (efBits : EventFlag)
  | initPhy (efBits : EventFlag)
  | enableMac (efBits : EventFlag)
  | dispatch (efBits : EventFlag)
  | emac3 (efBits : EventFlag) (intrReg : IntrBits)
  | rxend (efBits : EventFlag) (intrReg : IntrBits)
  | rxdnv (efBits : EventFlag) (intrReg : IntrBits) (resetCounter : Bool)
  | txdnv (efBits : EventFlag) (intrReg : IntrBits) (resetCounter : Bool)
  | txIntr (efBits : EventFlag) (resetCounter : Bool)
  | testXmit (efBits : EventFlag) (resetCounter : Bool)
  | txReqs (efBits : EventFlag) (resetCounter : Bool)
  | lastTxIntr (efBits : EventFlag) (resetCounter : Bool)
  | enable (efBits : EventFlag) (resetCounter : Bool)
  | testInTx (efBits : EventFlag) (resetCounter : Bool)
  | turnEnd (efBits : EventFlag) (resetCounter : Bool)
  | checkLink
  | recoverPhy
  | ended
deriving DecidableEq

/-- The driver with its interrupt handler thread: `intrStat` is the latch behind
`SPD_R_INTR_STAT`, `intrMask` the sources enabled by `dev9IntrEnable`. -/
structure Driver where
  tx : State
  control : Control
  smapIsInitialized : Bool
  netDevStopFlag : Bool
  intrStat : IntrBits
  intrMask : IntrBits
  counter : Int

/-- What `InitPHY` does next, as far as the thread that called it can see: it writes
`LinkStatus`, or it returns. -/
inductive PhyStep where
  | writes (linkStatus : Bool)
  | returns (ok : Bool)

/-- What the devices answer to a step of the thread. -/
structure Outcome where
  dmaOk : Bool
  received : Bool
  linkUp : Bool
  phy : PhyStep

/-- What happens next in the driver: a step of the network stack, of the hardware, of the
interrupt callback, of the calls that start and stop the device, or of
`IntrHandlerThread`. -/
inductive DriverAction where
  | output (call : OutputCall)
  | tcpip
  | complete (index : Nat) (ctrlStat : BitVec 16)
  /-- Sources latch, whether or not they are enabled. -/
  | raise (sources : IntrBits)
  | dev9IntrCb
  | linkCheckTimer
  | smapStart
  /-- The event of `SMAPStop`. -/
  | smapStop
  /-- The flag that `SMAPStop` sets after the event. -/
  | smapStopFlag
  /-- `IntrHandlerThread` goes on. -/
  | thread (outcome : Outcome)

namespace Driver

/-- A step of the transmit machine that leaves the thread at `control`. -/
def lift (driver : Driver) (action : Action) (control : Control) : Option Driver :=
  (driver.tx.step action).map fun tx => { driver with tx := tx, control := control }

/-- `dev9IntrEnable(DEV9_SMAP_INTR_MASK2)`: all sources but TXDNV. -/
def enableMask2 (mask : IntrBits) : IntrBits :=
  { mask with emac3 := true, rxend := true, rxdnv := true }

/-- `dev9IntrDisable(DEV9_SMAP_INTR_MASK2)`: three sources are disabled, among which TXDNV
is not. -/
def disableMask2 (mask : IntrBits) : IntrBits :=
  { mask with emac3 := false, rxend := false, rxdnv := false }

/-- A step of `IntrHandlerThread`. Each place of the thread is a case, in the order of its
loop. -/
def stepThread (driver : Driver) (outcome : Outcome) : Option Driver :=
  match driver.control with
  | .wait =>
      if driver.tx.events = .clear then none
      else driver.lift .waitEvents (.stop driver.tx.events)
  | .stop efBits =>
      if efBits.stop && driver.smapIsInitialized then
        { driver with
          intrMask := disableMask2 driver.intrMask
          netDevStopFlag := false
          smapIsInitialized := false }.lift (.link false) (.start efBits)
      else some { driver with control := .start efBits }
  | .start efBits =>
      if efBits.start && !driver.smapIsInitialized then
        some { driver with intrMask := enableMask2 driver.intrMask, control := .initPhy efBits }
      else some { driver with control := .dispatch efBits }
  | .initPhy efBits =>
      match outcome.phy with
      | .writes linkStatus => driver.lift (.link linkStatus) (.initPhy efBits)
      | .returns false => some { driver with control := .ended }
      | .returns true =>
          if driver.netDevStopFlag then
            some { driver with netDevStopFlag := false, control := .wait }
          else some { driver with control := .enableMac efBits }
  | .enableMac efBits =>
      some { driver with smapIsInitialized := true, control := .dispatch efBits }
  | .dispatch efBits =>
      if driver.smapIsInitialized then
        if efBits.intr && driver.intrStat != .none then
          some { driver with control := .emac3 efBits driver.intrStat }
        else some { driver with control := .testXmit efBits false }
      else some { driver with control := .wait }
  | .emac3 efBits intrReg =>
      some { driver with
        intrStat := { driver.intrStat with emac3 := driver.intrStat.emac3 && !intrReg.emac3 }
        control := .rxend efBits intrReg }
  | .rxend efBits intrReg =>
      some { driver with
        intrStat := { driver.intrStat with rxend := driver.intrStat.rxend && !intrReg.rxend }
        control := .rxdnv efBits intrReg (intrReg.rxend && outcome.received) }
  | .rxdnv efBits intrReg resetCounter =>
      some { driver with
        intrStat := { driver.intrStat with rxdnv := driver.intrStat.rxdnv && !intrReg.rxdnv }
        control := .txdnv efBits intrReg resetCounter }
  | .txdnv efBits intrReg resetCounter =>
      if intrReg.txdnv then
        { driver with intrStat := { driver.intrStat with txdnv := false } }.lift .handleTxIntr
          (.txIntr efBits resetCounter)
      else some { driver with control := .testXmit efBits resetCounter }
  | .txIntr efBits resetCounter =>
      if driver.tx.handler = .idle then
        some { driver with control := .testXmit { efBits with xmit := true } resetCounter }
      else driver.lift (.handler outcome.dmaOk) driver.control
  | .testXmit efBits resetCounter =>
      if efBits.xmit then driver.lift .handleTxReqs (.txReqs efBits resetCounter)
      else driver.lift .handleTxIntr (.lastTxIntr efBits resetCounter)
  | .txReqs efBits resetCounter =>
      if driver.tx.handler = .idle then
        driver.lift .handleTxIntr (.lastTxIntr efBits resetCounter)
      else driver.lift (.handler outcome.dmaOk) driver.control
  | .lastTxIntr efBits resetCounter =>
      if driver.tx.handler = .idle then some { driver with control := .enable efBits resetCounter }
      else driver.lift (.handler outcome.dmaOk) driver.control
  | .enable efBits resetCounter =>
      some { driver with
        intrMask := enableMask2 driver.intrMask
        control := .testInTx efBits resetCounter }
  | .testInTx efBits resetCounter =>
      if 0 < driver.tx.adapter.drv.numPacketsInTx then
        some { driver with
          intrMask := { driver.intrMask with txdnv := true }
          control := .turnEnd efBits resetCounter }
      else some { driver with control := .turnEnd efBits resetCounter }
  | .turnEnd efBits resetCounter =>
      if resetCounter then some { driver with counter := 3, control := .wait }
      else if efBits.linkCheck then
        if driver.counter - 1 ≤ 0 then
          some { driver with counter := driver.counter - 1, control := .checkLink }
        else some { driver with counter := driver.counter - 1, control := .wait }
      else some { driver with control := .wait }
  | .checkLink =>
      if outcome.linkUp then some { driver with control := .wait }
      else driver.lift (.link false) .recoverPhy
  | .recoverPhy =>
      match outcome.phy with
      | .writes linkStatus => driver.lift (.link linkStatus) .recoverPhy
      | .returns _ => some { driver with control := .wait }
  | .ended => none

/-- One step of the driver, if the action is possible. -/
def step (driver : Driver) : DriverAction → Option Driver
  | .output call => driver.lift (.output call) driver.control
  | .tcpip => driver.lift .tcpip driver.control
  | .complete index ctrlStat => driver.lift (.complete index ctrlStat) driver.control
  | .raise sources => some { driver with intrStat := driver.intrStat.union sources }
  | .dev9IntrCb =>
      if driver.intrStat.inter driver.intrMask = .none then none
      else { driver with intrMask := .none }.lift (.setEvents { EventFlag.clear with intr := true })
        driver.control
  | .linkCheckTimer =>
      driver.lift (.setEvents { EventFlag.clear with linkCheck := true }) driver.control
  | .smapStart => driver.lift (.setEvents { EventFlag.clear with start := true }) driver.control
  | .smapStop => driver.lift (.setEvents { EventFlag.clear with stop := true }) driver.control
  | .smapStopFlag => some { driver with netDevStopFlag := true }
  | .thread outcome => driver.stepThread outcome

/-- A lifted step is a move of the transmit machine. -/
theorem lift_some {driver next : Driver} {action : Action} {control : Control}
    (taken : driver.lift action control = some next) :
    ∃ tx, Moves driver.tx action tx ∧ next = { driver with tx := tx, control := control } := by
  obtain ⟨tx, moved, rfl⟩ := Option.map_eq_some_iff.mp taken
  exact ⟨tx, step_moves moved, rfl⟩

end Driver

/-- The driver once `SMapIFInit` has returned: a fresh transmit path, the thread
waiting, and the device initialised or not. -/
structure Waiting (driver : Driver) : Prop where
  tx : Fresh driver.tx
  control : driver.control = .wait

/-- The runs of the driver. -/
abbrev DriverRun := Runs.Run Driver.step Waiting

end Ps2Eth.Smap
