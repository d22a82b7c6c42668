import Mathlib.Data.BitVec
import Ps2Eth.Lib.Polling
import Ps2Eth.Smap.Configuration

/-!
# The start of the smap driver

`smap_init` of `smap/smap.c` reads its arguments, looks at the revision of the
adapter, resets the two FIFOs and the EMAC3, reads the MAC address from the EEPROM,
registers its callbacks and, in `initialize`, creates an event flag and a thread.

What it asks of the hardware and of the system is given by an environment; what it
does to them is a list of effects. Register writes whose values are named in headers
of the SDK only are left out, and so are prints and delays.
-/

namespace Ps2Eth.Smap.SmapInit

open CText (CString IsDigit digitOf value)

/-- The variables that the command line sets. -/
structure Settings where
  threadPriority : UInt32
  threadStackSize : UInt32
  enableVerboseOutput : Bool
  enableAutoNegotiation : Bool
  enablePinStrapConfig : Bool
  smapConfiguration : UInt32

/-- Their values when the module is loaded. -/
def loadedSettings : Settings where
  threadPriority := 0x28
  threadStackSize := 0x1000
  enableVerboseOutput := false
  enableAutoNegotiation := true
  enablePinStrapConfig := false
  smapConfiguration := 0x5e0

/-- The characters of a literal. -/
def text (literal : String) : List UInt8 := literal.toList.map fun c => c.toNat.toUInt8

/-- `isdigit`, of the C library, for the decimal digits. -/
def isdigit (c : UInt8) : Bool := decide (IsDigit c)

/-- `strtoul` in base 10 for a text that starts with a digit. -/
def strtoul (chars : List UInt8) : UInt32 :=
  UInt32.ofNat (min (value 10 ((chars.takeWhile isdigit).map digitOf)) 0xffffffff)

/-- `DisplayHelpMessage` prints a text, and its caller returns 2. -/
def displayHelpMessage : Int := 2

section Arguments

variable (moduleNoResidentEnd : Int)

/-- One turn of the loop over the arguments: the settings after it, and what
`smap_init` returns if the argument ends it. -/
def parseArgument (settings : Settings) (arg : CString) : Settings × Option Int :=
  if arg.chars = text "-help" then (settings, some displayHelpMessage)
  else if arg.chars = text "-version" then (settings, some moduleNoResidentEnd)
  else if arg.chars = text "-verbose" then ({ settings with enableVerboseOutput := true }, none)
  else if arg.chars = text "-auto" then ({ settings with enableAutoNegotiation := true }, none)
  else if arg.chars = text "-no_auto" then ({ settings with enableAutoNegotiation := false }, none)
  else if arg.chars = text "-strap" then ({ settings with enablePinStrapConfig := true }, none)
  else if arg.chars = text "-no_strap" then ({ settings with enablePinStrapConfig := false }, none)
  else if (text "thpri=").isPrefixOf arg.chars then
    let cmdString := arg.chars.drop 6
    if (cmdString.head?.map isdigit).getD false then
      let settings := { settings with threadPriority := strtoul cmdString }
      if settings.threadPriority - 9 ≥ 0x73 then (settings, some displayHelpMessage)
      else if cmdString.dropWhile isdigit ≠ [] then (settings, some displayHelpMessage)
      else (settings, none)
    else (settings, some displayHelpMessage)
  else if (text "thstack=").isPrefixOf arg.chars then
    let cmdString := arg.chars.drop 8
    if (cmdString.head?.map isdigit).getD false then
      if cmdString.dropWhile isdigit = text "KB" then
        ({ settings with threadStackSize := strtoul cmdString <<< 10 }, none)
      else ({ settings with threadStackSize := strtoul cmdString }, none)
    else (settings, some displayHelpMessage)
  else
    let parsed := parseSmapConfiguration arg settings.smapConfiguration
    if parsed.1 ≠ 0 then (settings, some displayHelpMessage)
    else ({ settings with smapConfiguration := parsed.2 }, none)

/-- The loop over the arguments and the test of `argc` behind it. -/
def parseArguments (argc : Int) (settings : Settings) : List CString → Settings × Option Int
  | [] => (settings, if argc = 0 then none else some displayHelpMessage)
  | arg :: argv =>
      if 0 < argc then
        let parsed := parseArgument moduleNoResidentEnd settings arg
        match parsed.2 with
        | some result => (parsed.1, some result)
        | none => parseArguments (argc - 1) parsed.1 argv
      else (settings, if argc = 0 then none else some displayHelpMessage)

end Arguments

/-- The words that `dev9GetEEPROM` delivers. -/
structure EepromData where
  w0 : BitVec 16
  w1 : BitVec 16
  w2 : BitVec 16
  w3 : BitVec 16

/-- What the hardware and the system answer: two revision registers, for each poll of
a reset whether its bit is still set, and the results of the calls. -/
structure Environment where
  rev1 : BitVec 16
  rev3 : BitVec 16
  txFifoReset : Nat → Bool
  rxFifoReset : Nat → Bool
  emac3Reset : Nat → Bool
  getEeprom : Int
  eepromData : EepromData
  createEventFlag : Int
  createThread : Int
  startThread : Int

/-- The EMAC registers that `smap_init` writes. -/
inductive Emac3Reg where
  | addrHi
  | addrLo
  | pauseTimer
  | groupHash (number : Nat)
  | interFrameGap
deriving DecidableEq

/-- What `smap_init` does to the world outside, as far as it may have to be undone or
leaves a value. -/
inductive Effect where
  | dev9IntrDisable
  | resetTxFifo
  | resetRxFifo
  | resetEmac3
  | clearBds
  | setEmac3 (reg : Emac3Reg) (value : BitVec 32)
  | dev9RegisterIntrCb (intr : Nat)
  | dev9RegisterPreDmaCb (ctrl : Nat)
  | dev9RegisterPostDmaCb (ctrl : Nat)
  | createEventFlag (result : Int)
  | deleteEventFlag (id : Int)
  | createThread (priority stacksize : UInt32) (result : Int)
  | startThread (id : Int)
  | deleteThread (id : Int)
deriving DecidableEq

/-- A wait for the end of a reset, where `i` counts down from 9 to 0. -/
def resetDone (bit : Nat → Bool) : Bool :=
  (Polling.poll (fun turn => (bit turn, turn + 1)) (!·) 10 0).1.isSome

/-- The word with its bytes swapped, as `(u16)(word>>8 | word<<8)`: the word is an
`int` here. -/
def swapped (word : BitVec 16) : BitVec 16 :=
  (word.setWidth 32 >>> 8 ||| word.setWidth 32 <<< 8).setWidth 16

/-- The value for `SMAP_R_EMAC3_ADDR_HI`: the first word of the address, its bytes
exchanged. -/
def addrHi (data : EepromData) : BitVec 32 := (swapped data.w0).setWidth 32

/-- The value for `SMAP_R_EMAC3_ADDR_LO`: the other two words, the bytes of each
exchanged. -/
def addrLo (data : EepromData) : BitVec 32 :=
  (swapped data.w1).setWidth 32 <<< 16 ||| (swapped data.w2).setWidth 32

/-- `checksum16`: the sum of the three words of the address, modulo 2^16. -/
def checksum16 (data : EepromData) : BitVec 16 := data.w0 + data.w1 + data.w2

/-- The set-up of the EMAC3. -/
def setUpEmac3 (data : EepromData) : List Effect :=
  [.setEmac3 .addrHi (addrHi data), .setEmac3 .addrLo (addrLo data), .setEmac3 .pauseTimer 0xffff,
    .setEmac3 (.groupHash 1) 0, .setEmac3 (.groupHash 2) 0, .setEmac3 (.groupHash 3) 0,
    .setEmac3 (.groupHash 4) 0, .setEmac3 .interFrameGap 4]

/-- The handlers registered at the end of `smap_init`. -/
def registerCallbacks : List Effect :=
  (List.range' 2 5).map Effect.dev9RegisterIntrCb ++ [.dev9RegisterPreDmaCb 1, .dev9RegisterPostDmaCb 1]

/-- `initialize` makes the event flag and the thread, and starts it. What was made is
deleted again where a later step fails. -/
def initializeDriver (env : Environment) (settings : Settings) : Int × List Effect :=
  if env.createEventFlag < 0 then (-6, [.createEventFlag env.createEventFlag])
  else
    let thread := Effect.createThread settings.threadPriority settings.threadStackSize env.createThread
    if env.createThread < 0 then
      (env.createThread,
        [.createEventFlag env.createEventFlag, thread, .deleteEventFlag env.createEventFlag])
    else if env.startThread < 0 then
      (env.startThread, [.createEventFlag env.createEventFlag, thread, .startThread env.createThread,
        .deleteThread env.createThread, .deleteEventFlag env.createEventFlag])
    else (0, [.createEventFlag env.createEventFlag, thread, .startThread env.createThread])

section

variable (spdCapsSmap : BitVec 16)

/-- `!SPD_REG16(SPD_R_REV_3)&SPD_CAPS_SMAP`, where the negation binds first. -/
def refusesCaps (rev3 : BitVec 16) : Bool := (if rev3 = 0 then 1#16 else 0#16) &&& spdCapsSmap != 0

/-- What `smap_init` does before it reads the EEPROM. -/
def quiet : List Effect := [.dev9IntrDisable, .resetTxFifo, .resetRxFifo, .resetEmac3, .clearBds]

/-- `smap_init` after its arguments: the checks of the hardware in their order, each with
its own result, and what was done before each. -/
def bringUp (env : Environment) (settings : Settings) : Int × List Effect :=
  if refusesCaps spdCapsSmap env.rev3 then (-1, [])
  else if env.rev1 < 0x11 then (-6, [])
  else if !resetDone env.txFifoReset then (-2, quiet.take 2)
  else if !resetDone env.rxFifoReset then (-3, quiet.take 3)
  else if !resetDone env.emac3Reset then (-4, quiet.take 4)
  else if env.getEeprom < 0 then (if env.getEeprom = -1 then -7 else -4, quiet)
  else if env.eepromData.w0 = 0 ∧ env.eepromData.w1 = 0 ∧ env.eepromData.w2 = 0 then (-5, quiet)
  else if checksum16 env.eepromData ≠ env.eepromData.w3 then (-5, quiet)
  else
    let initialized := initializeDriver env settings
    (initialized.1, quiet ++ setUpEmac3 env.eepromData ++ registerCallbacks ++ initialized.2)

end

/-- What `smap_init` returns, the settings it leaves, and its effects. -/
structure Outcome where
  result : Int
  settings : Settings
  effects : List Effect

/-- `smap_init`: the arguments are parsed, and then the device is brought up, unless an
argument ends it. -/
def smapInit (spdCapsSmap : BitVec 16) (moduleNoResidentEnd : Int) (env : Environment) (argc : Int)
    (argv : List CString) (settings : Settings) : Outcome :=
  let parsed := parseArguments moduleNoResidentEnd argc settings argv
  match parsed.2 with
  | some result => ⟨result, parsed.1, []⟩
  | none =>
      let started := bringUp spdCapsSmap env parsed.1
      ⟨started.1, parsed.1, started.2⟩

end Ps2Eth.Smap.SmapInit
