import Mathlib.Data.BitVec
import Ps2Eth.Lib.Runs

/-!
# How the ps2klsi driver brings up an adapter

`usb_klsi_probe` and `usb_klsi_attach` of `ps2klsi/driver.c`. The USB driver calls them
one at a time, the second after a successful call of the first. `usb_klsi_attach` takes
the device that was probed last, whatever device it is given; each of its requests blocks
until the transfer is complete, and it may wait for good. `kue_do_request` has no result
that it returns, so what `kue_load_fw` looks at is arbitrary.

Meanwhile the read threads and the senders of the interfaces added before, and
`udp_log`, go on with the pipes of `klsi_etherif`. ARP frames do not: they come through
`netif->linkoutput`, so `low_level_output` takes the `netif` record for a `struct ethernetif`
and finds the member `input`, the address of `tcpip_input`, where it looks for the pipe.

A step is one call, the completion of a request or the end of a delay, or a transfer that
one of the others starts.
-/

namespace Ps2Eth.Ps2klsi.Attach

/-- The segments of `kue_fw.h`, three tables of bytes that are sent as they are. -/
structure Firmware where
  kueCodeSeg : List UInt8
  kueFixSeg : List UInt8
  kueTrigSeg : List UInt8

/-- The `requesttype` of the requests that the driver makes. -/
inductive RequestType where
  /-- 0, a standard request. -/
  | standard
  /-- `USB_DIR_OUT | USB_TYPE_VENDOR` -/
  | vendorOut
  /-- `USB_DIR_IN | USB_TYPE_VENDOR` -/
  | vendorIn
deriving DecidableEq

/-- `UsbDeviceRequest` with the data that goes out. The index is 0 in all of them. -/
structure UsbDeviceRequest where
  requesttype : RequestType
  request : UInt8
  value : BitVec 16
  length : Nat
  data : List UInt8
deriving DecidableEq

/-- The transfer types of an endpoint. -/
inductive Xfer where
  | bulk
  | int
  | other
deriving DecidableEq

/-- An endpoint, as `usb_klsi_attach` looks at it: its direction and its transfer type. -/
structure UsbEndpointDescriptor where
  dirIn : Bool
  bmAttributes : Xfer
deriving DecidableEq

/-- The fields of a device descriptor that `usb_klsi_probe` and `usb_klsi_attach` read. -/
structure UsbDeviceDescriptor where
  idVendor : BitVec 16
  idProduct : BitVec 16
  bcdDevice : BitVec 16

/-- The descriptors of a device: `device` is none for NULL, the endpoints are those of
its first interface and what follows them in memory, and the others that are looked for
may be NULL. -/
structure Descriptors where
  device : Option UsbDeviceDescriptor
  bNumEndpoints : Nat
  eds : Nat → UsbEndpointDescriptor
  cd : Bool
  ci : Bool
  ce : Bool

/-- `usb_klsi_probe`: whether the device is recognised. -/
def usbKlsiProbe (device : Option UsbDeviceDescriptor) : Bool :=
  match device with
  | none => false
  | some device =>
      (device.idVendor == 0x0846 && device.idProduct == 0x1001) ||
        (device.idVendor == 0x0565 && device.idProduct == 0x0002)

/-- The indices of the endpoints in `klsi_etherif`. -/
structure Endpoints where
  epin : Nat
  epout : Nat
  epint : Nat

/-- One turn of the loop over the endpoints. -/
def Endpoints.look (eps : Endpoints) (ed : UsbEndpointDescriptor) (i : Nat) : Endpoints :=
  if ed.dirIn ∧ ed.bmAttributes = .bulk then { eps with epin := i }
  else if ¬ ed.dirIn ∧ ed.bmAttributes = .bulk then { eps with epout := i }
  else if ed.dirIn ∧ ed.bmAttributes = .int then { eps with epint := i }
  else eps

/-- The loop over the endpoints of the interface: the last one that fits is kept. -/
def Endpoints.scan (eps : Endpoints) (usb : Descriptors) : Endpoints :=
  (List.range usb.bNumEndpoints).foldl (fun eps i => eps.look (usb.eds i) i) eps

/-- The requests, in their order. -/
inductive Stage where
  | codeSeg
  | fixSeg
  | trigSeg
  | reset
  | readMac
  | setMac
  | pktFilter
  | sofs
  | urbSize
deriving DecidableEq

/-- `kue_setword`: a vendor request with a word and no data. -/
def kueSetword (breq : UInt8) (word : BitVec 16) : UsbDeviceRequest := ⟨.vendorOut, breq, word, 0, []⟩

/-- `kue_ctl` with `KUE_CTL_WRITE`: a vendor request with data for the adapter. -/
def kueCtlWrite (breq : UInt8) (val : BitVec 16) (data : List UInt8) : UsbDeviceRequest :=
  ⟨.vendorOut, breq, val, data.length, data⟩

/-- `kue_ctl` with `KUE_CTL_READ`: a vendor request for a number of bytes of the
adapter. -/
def kueCtlRead (breq : UInt8) (val : BitVec 16) (len : Nat) : UsbDeviceRequest :=
  ⟨.vendorIn, breq, val, len, []⟩

/-- The request of a stage, with the address as it stands. -/
def Stage.request (firmware : Firmware) (eaddr : List UInt8) : Stage → UsbDeviceRequest
  | codeSeg => kueCtlWrite 0xff 0 firmware.kueCodeSeg
  | fixSeg => kueCtlWrite 0xff 0 firmware.kueFixSeg
  | trigSeg => kueCtlWrite 0xff 0 firmware.kueTrigSeg
  | reset => ⟨.standard, 9, 1, 0, []⟩
  | readMac => kueCtlRead 0x07 0 6
  | setMac => kueCtlWrite 0x06 0 eaddr
  | pktFilter => kueSetword 0x02 (0x0004 ||| 0x0008 ||| 0x0001 ||| 0x0002)
  | sofs => kueSetword 0x09 1
  | urbSize => kueSetword 0x08 64

/-- Where `usb_klsi_attach` stands, with the device and the control endpoint it began
with: outside, waiting for a request, in the delay of `kue_reset`, about to open the
pipes, or in its last delay. -/
inductive Place where
  | outside
  | waiting (device control : Int) (stage : Stage)
  | resetting (device control : Int)
  | opening (device control : Int)
  | settling
deriving DecidableEq

/-- The data of the driver, and the hardware addresses of the interfaces added. -/
structure Klsi where
  global : Int
  cepid : Int
  eaddr : List UInt8
  eps : Endpoints
  hin : Int
  hout : Int
  udpLogInit : UInt8
  netifs : List (List UInt8)
  place : Place

/-- Who starts a transfer of its own: the read thread of an interface, a sender with an IP
packet, a sender or the read thread with an ARP frame, or `udp_log`. -/
inductive User where
  | reader (netif : Nat)
  | sender (netif : Nat)
  | arp (netif : Nat)
  | log
deriving DecidableEq

/-- What happens next to the driver: the USB stack calls it or answers it, or code that
sends or receives starts a transfer. -/
inductive Action where
  /-- `usb_klsi_probe` is called. -/
  | probe (deviceID : Int)
  /-- `usb_klsi_attach` is called; `UsbOpenEndpoint` answers. -/
  | attach (deviceID control : Int)
  /-- The request is complete: what `kue_do_request` returns, and what was read. -/
  | complete (err : Int) (data : List UInt8)
  /-- A delay is over. -/
  | delayed
  /-- The pipes are opened. -/
  | opened (hin hout : Int)
  /-- A transfer is started. -/
  | transfer (user : User)

/-- What is read replaces the first bytes. -/
def readInto (eaddr data : List UInt8) : List UInt8 := data.take eaddr.length ++ eaddr.drop data.length

namespace Klsi

variable (usb : Int → Descriptors) (klsi : Klsi)

/-- `usb_klsi_attach`, up to its first request. -/
def stepAttach (control : Int) : Klsi :=
  match (usb klsi.global).device with
  | none => klsi
  | some device =>
      let klsi := { klsi with eps := klsi.eps.scan (usb klsi.global) }
      if !((usb klsi.global).cd && (usb klsi.global).ci && (usb klsi.global).ce) then klsi
      else
        { klsi with
          cepid := control
          place := .waiting klsi.global control
            (if device.bcdDevice ≠ 0x202 then .codeSeg else .reset) }

/-- The request of a stage is complete. -/
def stepComplete (device control : Int) (err : Int) (data : List UInt8) : Stage → Klsi
  | .codeSeg =>
      { klsi with place := if err ≠ 0 then .outside else .waiting device control .fixSeg }
  | .fixSeg =>
      { klsi with place := if err ≠ 0 then .outside else .waiting device control .trigSeg }
  | .trigSeg =>
      { klsi with place := if err ≠ 0 then .outside else .waiting device control .reset }
  | .reset => { klsi with place := .resetting device control }
  | .readMac =>
      { klsi with eaddr := readInto klsi.eaddr data, place := .waiting device control .setMac }
  | .setMac => { klsi with place := .waiting device control .pktFilter }
  | .pktFilter => { klsi with place := .waiting device control .sofs }
  | .sofs => { klsi with place := .waiting device control .urbSize }
  | .urbSize => { klsi with place := .opening device control }

/-- Whether a user can start a transfer. -/
def mayTransfer : User → Bool
  | .reader netif | .sender netif | .arp netif => netif < klsi.netifs.length
  | .log => klsi.udpLogInit ≠ 0

/-- One step, if it is possible. The interface is added as the pipes are opened. -/
def step : Action → Option Klsi
  | .probe deviceID =>
      match klsi.place with
      | .outside => some { klsi with global := deviceID }
      | _ => none
  | .attach _ control =>
      match klsi.place with
      | .outside =>
          if usbKlsiProbe (usb klsi.global).device then some (klsi.stepAttach usb control) else none
      | _ => none
  | .complete err data =>
      match klsi.place with
      | .waiting device control stage => some (klsi.stepComplete device control err data stage)
      | _ => none
  | .delayed =>
      match klsi.place with
      | .resetting device control => some { klsi with place := .waiting device control .readMac }
      | .settling => some { klsi with udpLogInit := 1, place := .outside }
      | _ => none
  | .opened hin hout =>
      match klsi.place with
      | .opening _ _ => some { klsi with
          hin := hin, hout := hout, netifs := klsi.netifs ++ [klsi.eaddr], place := .settling }
      | _ => none
  | .transfer user => if klsi.mayTransfer user then some klsi else none

end Klsi

/-- The stage behind a stage whose request is all that is between them. -/
def Stage.next : Stage → Option Stage
  | codeSeg => some fixSeg
  | fixSeg => some trigSeg
  | trigSeg => some reset
  | reset => none
  | readMac => some setMac
  | setMac => some pktFilter
  | pktFilter => some sofs
  | sofs => some urbSize
  | urbSize => none

/-- The stages of `kue_load_fw`, which look at the result. -/
def Stage.loads : Stage → Bool
  | codeSeg | fixSeg | trigSeg => true
  | _ => false

/-- The firmware has to be loaded, as the adapter reports another version than it has with
firmware. -/
def Descriptors.load (usb : Descriptors) : Bool :=
  usb.device.any fun device => device.bcdDevice ≠ 0x202

section Moves

variable (usb : Int → Descriptors)

/-- What each step does, said once with the guard under which it is taken. -/
inductive Moves (klsi : Klsi) : Action → Klsi → Prop where
  | probe {deviceID : Int} (here : klsi.place = .outside) :
      Moves klsi (.probe deviceID) { klsi with global := deviceID, place := .outside }
  | refused {deviceID control : Int} (here : klsi.place = .outside) (eps : Endpoints) :
      Moves klsi (.attach deviceID control) { klsi with eps := eps }
  | begin {deviceID control : Int} (here : klsi.place = .outside)
      (recognised : usbKlsiProbe (usb klsi.global).device = true) :
      Moves klsi (.attach deviceID control) { klsi with
        eps := klsi.eps.scan (usb klsi.global)
        cepid := control
        place := .waiting klsi.global control
          (if (usb klsi.global).load then .codeSeg else .reset) }
  | abandon {err : Int} {data : List UInt8} {device control : Int} {stage : Stage}
      (here : klsi.place = .waiting device control stage) (loads : stage.loads = true) :
      Moves klsi (.complete err data) { klsi with place := .outside }
  | next {err : Int} {data : List UInt8} {device control : Int} {stage later : Stage}
      (here : klsi.place = .waiting device control stage) (next : stage.next = some later) :
      Moves klsi (.complete err data) { klsi with
        eaddr := if stage = .readMac then readInto klsi.eaddr data else klsi.eaddr
        place := .waiting device control later }
  | reset {err : Int} {data : List UInt8} {device control : Int}
      (here : klsi.place = .waiting device control .reset) :
      Moves klsi (.complete err data) { klsi with place := .resetting device control }
  | last {err : Int} {data : List UInt8} {device control : Int}
      (here : klsi.place = .waiting device control .urbSize) :
      Moves klsi (.complete err data) { klsi with place := .opening device control }
  | resumed {device control : Int} (here : klsi.place = .resetting device control) :
      Moves klsi .delayed { klsi with place := .waiting device control .readMac }
  | settled (here : klsi.place = .settling) :
      Moves klsi .delayed { klsi with udpLogInit := 1, place := .outside }
  | opened {hin hout device control : Int} (here : klsi.place = .opening device control) :
      Moves klsi (.opened hin hout) { klsi with
        hin := hin, hout := hout, netifs := klsi.netifs ++ [klsi.eaddr], place := .settling }
  | transfer {user : User} (may : klsi.mayTransfer user = true) : Moves klsi (.transfer user) klsi

/-- `usb_klsi_attach` starts its requests, or gives up. -/
theorem stepAttach_moves {klsi : Klsi} (deviceID control : Int) (here : klsi.place = .outside)
    (recognised : usbKlsiProbe (usb klsi.global).device = true) :
    Moves usb klsi (.attach deviceID control) (klsi.stepAttach usb control) := by
  cases found : (usb klsi.global).device with
  | none =>
    simp only [Klsi.stepAttach, found]
    exact Moves.refused here klsi.eps
  | some device =>
    simp only [Klsi.stepAttach, found]
    split
    · exact Moves.refused here _
    · have first : (if device.bcdDevice ≠ 0x202 then Stage.codeSeg else .reset) =
          if (usb klsi.global).load then .codeSeg else .reset := by
        simp [Descriptors.load, found]
      rw [first]
      exact Moves.begin here recognised

/-- A request is complete: the next one follows, or it was the last before a delay or
before the pipes are opened, or the firmware is given up. -/
theorem stepComplete_moves {klsi : Klsi} {device control : Int} {stage : Stage} (err : Int)
    (data : List UInt8) (here : klsi.place = .waiting device control stage) :
    Moves usb klsi (.complete err data) (klsi.stepComplete device control err data stage) := by
  cases stage with
  | codeSeg | fixSeg | trigSeg =>
    simp only [Klsi.stepComplete]
    split
    · exact Moves.abandon here rfl
    · exact Moves.next here rfl
  | reset => exact Moves.reset here
  | readMac | setMac | pktFilter | sofs => exact Moves.next here rfl
  | urbSize => exact Moves.last here

/-- Every step is one of the moves. -/
theorem step_moves {klsi next : Klsi} {action : Action} (taken : klsi.step usb action = some next) :
    Moves usb klsi action next := by
  cases action with
  | probe deviceID =>
    cases here : klsi.place with
    | outside =>
      simp only [Klsi.step, here, Option.some.injEq] at taken
      exact taken ▸ Moves.probe here
    | waiting | resetting | opening | settling => simp [Klsi.step, here] at taken
  | attach deviceID control =>
    cases here : klsi.place with
    | outside =>
      simp only [Klsi.step, here, Option.ite_none_right_eq_some, Option.some.injEq] at taken
      obtain ⟨recognised, rfl⟩ := taken
      exact stepAttach_moves usb deviceID control here recognised
    | waiting | resetting | opening | settling => simp [Klsi.step, here] at taken
  | complete err data =>
    cases here : klsi.place with
    | waiting device control stage =>
      simp only [Klsi.step, here, Option.some.injEq] at taken
      exact taken ▸ stepComplete_moves usb err data here
    | outside | resetting | opening | settling => simp [Klsi.step, here] at taken
  | delayed =>
    cases here : klsi.place with
    | resetting device control =>
      simp only [Klsi.step, here, Option.some.injEq] at taken
      exact taken ▸ Moves.resumed here
    | settling =>
      simp only [Klsi.step, here, Option.some.injEq] at taken
      exact taken ▸ Moves.settled here
    | outside | waiting | opening => simp [Klsi.step, here] at taken
  | opened hin hout =>
    cases here : klsi.place with
    | opening device control =>
      simp only [Klsi.step, here, Option.some.injEq] at taken
      exact taken ▸ Moves.opened here
    | outside | waiting | resetting | settling => simp [Klsi.step, here] at taken
  | transfer user =>
    simp only [Klsi.step, Option.ite_none_right_eq_some, Option.some.injEq] at taken
    obtain ⟨may, rfl⟩ := taken
    exact Moves.transfer may

end Moves

/-- A call of the USB driver or of the stack that brings up an adapter. -/
inductive Call where
  | openEndpoint (device control : Int)
  | request (control : Int) (request : UsbDeviceRequest)
  | openPipe (device : Int) (endpoint : UsbEndpointDescriptor) (handle : Int)
  | netifAdd (hwaddr : List UInt8)
deriving DecidableEq

section Calls

variable (usb : Int → Descriptors) (firmware : Firmware)

/-- The request that is made on the way to a place. -/
def entered (klsi : Klsi) : List Call :=
  match klsi.place with
  | .waiting _ _ stage => [.request klsi.cepid (stage.request firmware klsi.eaddr)]
  | _ => []

/-- The calls that a step makes to bring up an adapter. -/
def calls (klsi : Klsi) (action : Action) : List Call :=
  match action, klsi.step usb action with
  | .attach _ control, some next =>
      match next.place with
      | .waiting device _ _ => .openEndpoint device control :: entered firmware next
      | _ => []
  | .complete _ _, some next | .delayed, some next => entered firmware next
  | .opened hin hout, some next =>
      [.openPipe klsi.global ((usb klsi.global).eds klsi.eps.epin) hin,
        .openPipe klsi.global ((usb klsi.global).eds klsi.eps.epout) hout,
        .netifAdd next.eaddr]
  | _, _ => []

end Calls

/-- The pipe that a user's transfer is started on. For an ARP frame it is the address of
`tcpip_input`, which stands in the `netif` record where `hout` is in a `struct ethernetif`. -/
def pipeOf (tcpipInput : Int) (klsi : Klsi) : User → Int
  | .reader _ => klsi.hin
  | .sender _ | .log => klsi.hout
  | .arp _ => tcpipInput

/-- The transfer that a step starts: its user, and the pipe. -/
def transfers (tcpipInput : Int) (klsi : Klsi) : Action → List (User × Int)
  | .transfer user => [(user, pipeOf tcpipInput klsi user)]
  | _ => []

/-- What the adapter gave, where a step is the end of the request for its address. It may
be less than six bytes, or nothing where the request failed. -/
def answers (klsi : Klsi) : Action → List (List UInt8)
  | .complete _ data =>
      match klsi.place with
      | .waiting _ _ .readMac => [data]
      | _ => []
  | _ => []

/-- Whether the adapter that is being brought up was asked for its address. -/
def Place.hasRead : Place → Bool
  | .waiting _ _ .setMac | .waiting _ _ .pktFilter | .waiting _ _ .sofs | .waiting _ _ .urbSize
  | .opening _ _ => true
  | _ => false

/-- The stages of `kue_load_fw`, if the firmware is loaded. -/
def segments (load : Bool) : List Stage := if load then [.codeSeg, .fixSeg, .trigSeg] else []

/-- The stages up to a stage. -/
def Stage.upTo (load : Bool) : Stage → List Stage
  | codeSeg => [codeSeg]
  | fixSeg => [codeSeg, fixSeg]
  | trigSeg => [codeSeg, fixSeg, trigSeg]
  | reset => segments load ++ [reset]
  | readMac => segments load ++ [reset, readMac]
  | setMac => segments load ++ [reset, readMac, setMac]
  | pktFilter => segments load ++ [reset, readMac, setMac, pktFilter]
  | sofs => segments load ++ [reset, readMac, setMac, pktFilter, sofs]
  | urbSize => segments load ++ [reset, readMac, setMac, pktFilter, sofs, urbSize]

/-- An adapter that is brought up: its device and control endpoint, whether it needs
the firmware, and the address it is given. -/
structure Setup where
  device : Int
  control : Int
  load : Bool
  mac : List UInt8

/-- The calls up to the request of a stage. -/
def Setup.upTo (firmware : Firmware) (setup : Setup) (stage : Stage) : List Call :=
  .openEndpoint setup.device setup.control ::
    (stage.upTo setup.load).map fun stage => .request setup.control (stage.request firmware setup.mac)

/-- An adapter that was brought up, with what it gave for its address and its two pipes. -/
structure Session extends Setup where
  given : List UInt8
  edin : UsbEndpointDescriptor
  edout : UsbEndpointDescriptor
  hin : Int
  hout : Int

/-- All its calls: the requests, the pipes, and only then the interface. -/
def Session.calls (firmware : Firmware) (session : Session) : List Call :=
  session.upTo firmware .urbSize ++
    [.openPipe session.device session.edin session.hin,
      .openPipe session.device session.edout session.hout, .netifAdd session.mac]

/-- A call of `usb_klsi_attach` that got to the device: it ended, or was given up with
the firmware. -/
inductive Attempt where
  | ended (session : Session)
  | abandoned (setup : Setup) (stage : Stage)

namespace Attempt

/-- The calls of an attempt: all of them, or those up to the firmware segment it was given
up with. -/
def calls (firmware : Firmware) : Attempt → List Call
  | ended session => session.calls firmware
  | abandoned setup stage => setup.upTo firmware stage

/-- The address of the interface that was added. -/
def hwaddr : Attempt → Option (List UInt8)
  | ended session => some session.mac
  | abandoned _ _ => none

/-- What the adapter gave for its address. An attempt that was given up did not ask. -/
def given : Attempt → Option (List UInt8)
  | ended session => some session.given
  | abandoned _ _ => none

end Attempt

/-- The request of a further stage is appended. Only a read of the address changes it. -/
theorem upTo_next (firmware : Firmware) {setup : Setup} {stage later : Stage} {mac : List UInt8}
    (next : stage.next = some later) (load : stage.loads = true → setup.load = true)
    (same : stage ≠ .readMac → mac = setup.mac) :
    Setup.upTo firmware { setup with mac := mac } later =
      setup.upTo firmware stage ++ [.request setup.control (later.request firmware mac)] := by
  obtain ⟨device, control, loaded, before⟩ := setup
  cases stage with
  | codeSeg | fixSeg =>
    obtain rfl := Option.some.inj next
    rfl
  | trigSeg =>
    obtain rfl := Option.some.inj next
    obtain rfl : loaded = true := load rfl
    rfl
  | reset | urbSize => cases next
  | readMac =>
    obtain rfl := Option.some.inj next
    cases loaded <;> rfl
  | setMac | pktFilter | sofs =>
    obtain rfl := Option.some.inj next
    obtain rfl : mac = before := same (by decide)
    cases loaded <;> rfl

/-- Behind the reset the address is read. -/
theorem upTo_readMac (firmware : Firmware) (setup : Setup) :
    setup.upTo firmware .readMac =
      setup.upTo firmware .reset ++
        [.request setup.control (Stage.readMac.request firmware setup.mac)] := by
  obtain ⟨device, control, loaded, before⟩ := setup
  cases loaded <;> rfl

/-- A bulk endpoint in the direction. -/
def UsbEndpointDescriptor.bulk (dirIn : Bool) (ed : UsbEndpointDescriptor) : Bool :=
  ed.dirIn == dirIn && ed.bmAttributes == .bulk

/-- The index is that of a bulk endpoint in the direction, if one of the first is. -/
def Finds (eds : Nat → UsbEndpointDescriptor) (count : Nat) (dirIn : Bool) (index : Nat) : Prop :=
  (∃ i < count, (eds i).bulk dirIn = true) → index < count ∧ (eds index).bulk dirIn = true

/-- One endpoint more is looked at; if it fits it takes the place of the one found
before. -/
theorem Finds.look {eds : Nat → UsbEndpointDescriptor} {count index : Nat} {dirIn : Bool}
    (finds : Finds eds count dirIn index) :
    Finds eds (count + 1) dirIn (if (eds count).bulk dirIn then count else index) := by
  rintro ⟨i, inside, found⟩
  by_cases last : (eds count).bulk dirIn = true
  · rw [if_pos last]
    exact ⟨Nat.lt_succ_self count, last⟩
  · rw [if_neg last]
    have early : i < count := by
      refine Nat.lt_of_le_of_ne (Nat.le_of_lt_succ inside) ?_
      rintro rfl
      exact last found
    obtain ⟨before, bulk⟩ := finds ⟨i, early, found⟩
    exact ⟨Nat.lt_succ_of_lt before, bulk⟩

/-- Looking at an endpoint takes its index for the direction that it serves as a bulk
endpoint, and keeps the other index. -/
theorem look_indices (eps : Endpoints) (ed : UsbEndpointDescriptor) (i : Nat) :
    (eps.look ed i).epin = (if ed.bulk true then i else eps.epin) ∧
      (eps.look ed i).epout = if ed.bulk false then i else eps.epout := by
  obtain ⟨dirIn, bmAttributes⟩ := ed
  cases dirIn <;> cases bmAttributes <;> exact ⟨rfl, rfl⟩

/-- The loop over the endpoints ends on the bulk endpoints of the interface; where there
is none, the index from before stays. -/
theorem scan_finds (eps : Endpoints) (usb : Descriptors) :
    Finds usb.eds usb.bNumEndpoints true (eps.scan usb).epin ∧
      Finds usb.eds usb.bNumEndpoints false (eps.scan usb).epout := by
  unfold Endpoints.scan
  induction usb.bNumEndpoints with
  | zero =>
    constructor
    all_goals
      rintro ⟨i, inside, -⟩
      cases inside
  | succ count inductionHypothesis =>
    rw [List.range_succ, List.foldl_append, List.foldl_cons, List.foldl_nil, (look_indices _ _ _).1,
      (look_indices _ _ _).2]
    exact ⟨inductionHypothesis.1.look, inductionHypothesis.2.look⟩

section BringUp

variable (usb : Int → Descriptors) (firmware : Firmware) (tcpipInput : Int)

/-- The adapter that is being brought up. -/
def setupAt (klsi : Klsi) (device control : Int) : Setup :=
  ⟨device, control, (usb device).load, klsi.eaddr⟩

/-- The calls made for it so far. -/
def current (klsi : Klsi) : List Call :=
  match klsi.place with
  | .outside | .settling => []
  | .waiting device control stage => (setupAt usb klsi device control).upTo firmware stage
  | .resetting device control => (setupAt usb klsi device control).upTo firmware .reset
  | .opening device control => (setupAt usb klsi device control).upTo firmware .urbSize

/-- The driver stands before a device that it recognised: its globals are those that it
began with, and it has looked at the endpoints. -/
structure Facing (klsi : Klsi) (device control : Int) : Prop where
  recognised : usbKlsiProbe (usb device).device = true
  global : klsi.global = device
  cepid : klsi.cepid = control
  epin : Finds (usb device).eds (usb device).bNumEndpoints true klsi.eps.epin
  epout : Finds (usb device).eds (usb device).bNumEndpoints false klsi.eps.epout

/-- So it does wherever it waits for the device. -/
def Stands (klsi : Klsi) : Prop :=
  match klsi.place with
  | .outside | .settling => True
  | .waiting device control stage =>
      Facing usb klsi device control ∧ (stage.loads = true → (usb device).load = true)
  | .resetting device control | .opening device control => Facing usb klsi device control

/-- An attempt fits its device: it is one that the driver recognises, the firmware is
loaded where the device needs it, only the firmware is given up, and the pipes are on the
bulk endpoints of the interface. -/
def Attempt.Fits : Attempt → Prop
  | ended session => usbKlsiProbe (usb session.device).device = true ∧
      session.load = (usb session.device).load ∧ session.mac.length = 6 ∧
      (∃ index, session.edin = (usb session.device).eds index ∧
        Finds (usb session.device).eds (usb session.device).bNumEndpoints true index) ∧
      ∃ index, session.edout = (usb session.device).eds index ∧
        Finds (usb session.device).eds (usb session.device).bNumEndpoints false index
  | abandoned setup stage => usbKlsiProbe (usb setup.device).device = true ∧
      setup.load = (usb setup.device).load ∧ setup.load = true ∧ stage.loads = true

/-- The pipes were opened by an attempt that ended. -/
def OpenedBy (attempts : List Attempt) (hin hout : Int) : Prop :=
  ∃ session, .ended session ∈ attempts ∧ session.hin = hin ∧ session.hout = hout

/-- A transfer is on a pipe for its purpose that an attempt had opened, but for an ARP frame:
that is on the address of `tcpip_input`. -/
def OnPipe (tcpipInput : Int) (attempts : List Attempt) : User × Int → Prop
  | (.reader _, handle) => ∃ hout, OpenedBy attempts handle hout
  | (.sender _, handle) | (.log, handle) => ∃ hin, OpenedBy attempts hin handle
  | (.arp _, handle) => handle = tcpipInput

/-- The address in the driver as it is loaded, `eaddr`. -/
def factoryAddress : List UInt8 := [1, 2, 3, 4, 5, 6]

/-- What was seen of the answers is what the attempts that ended were given, and that of the
attempt under way if it has asked. -/
def Asked (seen : List (List UInt8)) (attempts : List Attempt) (place : Place) : Prop :=
  ∃ pending, seen = attempts.filterMap Attempt.given ++ pending ∧
    pending.length = if place.hasRead then 1 else 0

/-- How adapters were brought up, as seen after some steps: the calls are those of the
attempts one after the other, and those made so far of the last; the adapters were asked
for their addresses once in each attempt that ended, and the one under way maybe already;
each that ended added one interface, whose address is what its adapter gave, with the end
of the address before it where that was less than six bytes; and whatever transfer was
started was on a pipe that an attempt had opened, ARP frames excepted. -/
structure BringsUp (steps : List (Klsi × Action)) (klsi : Klsi) (attempts : List Attempt) : Prop where
  made : Runs.observed (calls usb firmware) steps =
    attempts.flatMap (Attempt.calls firmware) ++ current usb firmware klsi
  fits : ∀ attempt ∈ attempts, attempt.Fits usb
  netifs : klsi.netifs = attempts.filterMap Attempt.hwaddr
  asked : Asked (Runs.observed answers steps) attempts klsi.place
  addressed : attempts.filterMap Attempt.hwaddr =
    ((attempts.filterMap Attempt.given).scanl readInto factoryAddress).tail
  pipes : klsi.netifs ≠ [] → OpenedBy attempts klsi.hin klsi.hout
  log : klsi.udpLogInit ≠ 0 → klsi.netifs ≠ []
  used : ∀ entry ∈ Runs.observed (transfers tcpipInput) steps, OnPipe tcpipInput attempts entry

/-- What every step keeps: the attempts that the calls are made of, where the driver
stands among them, and the address as the answers have made it. -/
structure Kept (steps : List (Klsi × Action)) (klsi : Klsi) : Prop where
  bringsUp : ∃ attempts, BringsUp usb firmware tcpipInput steps klsi attempts
  stands : Stands usb klsi
  settling : klsi.place = .settling → klsi.netifs ≠ []
  eaddr : klsi.eaddr = (Runs.observed answers steps).foldl readInto factoryAddress

variable {usb firmware tcpipInput} {steps : List (Klsi × Action)} {klsi next : Klsi} {action : Action}
  {attempts : List Attempt}

/-- The call faces the same device wherever it goes on from. -/
theorem Facing.goOn {device control : Int} (facing : Facing usb klsi device control)
    (place : Place) : Facing usb { klsi with place := place } device control :=
  ⟨facing.recognised, facing.global, facing.cepid, facing.epin, facing.epout⟩

/-- Pipes that an attempt had opened stay opened by it when further attempts follow. -/
theorem OpenedBy.more {hin hout : Int} (opened : OpenedBy attempts hin hout)
    (more : List Attempt) : OpenedBy (attempts ++ more) hin hout := by
  obtain ⟨session, member, pipes⟩ := opened
  exact ⟨session, List.mem_append_left more member, pipes⟩

/-- Attempts that come later take nothing from a transfer. -/
theorem OnPipe.more {entry : User × Int} (onPipe : OnPipe tcpipInput attempts entry)
    (more : List Attempt) : OnPipe tcpipInput (attempts ++ more) entry := by
  obtain ⟨user, handle⟩ := entry
  cases user with
  | reader netif =>
    obtain ⟨hout, opened⟩ := onPipe
    exact ⟨hout, opened.more more⟩
  | sender netif | log =>
    obtain ⟨hin, opened⟩ := onPipe
    exact ⟨hin, opened.more more⟩
  | arp netif => exact onPipe

/-- Where no answer comes, the answers stay those of the attempts. -/
theorem Asked.quiet {seen none : List (List UInt8)} {place other : Place}
    (asked : Asked seen attempts place) (no : none = []) (same : other.hasRead = place.hasRead) :
    Asked (seen ++ none) attempts other := by
  obtain ⟨pending, whole, length⟩ := asked
  refine ⟨pending, ?_, ?_⟩
  · rw [no, List.append_nil, whole]
  · rw [same, length]

/-- A step that goes on with the calls, and may end attempts. -/
theorem BringsUp.extend (brings : BringsUp usb firmware tcpipInput steps klsi attempts)
    (more : List Attempt)
    (call : current usb firmware klsi ++ calls usb firmware klsi action =
      more.flatMap (Attempt.calls firmware) ++ current usb firmware next)
    (fits : ∀ attempt ∈ more, attempt.Fits usb)
    (netifs : next.netifs = klsi.netifs ++ more.filterMap Attempt.hwaddr)
    (asked : Asked (Runs.observed answers steps ++ answers klsi action) (attempts ++ more) next.place)
    (addressed : (attempts ++ more).filterMap Attempt.hwaddr =
      (((attempts ++ more).filterMap Attempt.given).scanl readInto factoryAddress).tail)
    (pipes : next.netifs ≠ [] → OpenedBy (attempts ++ more) next.hin next.hout)
    (log : next.udpLogInit ≠ 0 → next.netifs ≠ [])
    (transfer : ∀ entry ∈ transfers tcpipInput klsi action, OnPipe tcpipInput attempts entry) :
    BringsUp usb firmware tcpipInput (steps ++ [(klsi, action)]) next (attempts ++ more) := by
  constructor
  · rw [Runs.observed_snoc, brings.made, List.append_assoc, call, List.flatMap_append,
      List.append_assoc]
  · intro attempt member
    rcases List.mem_append.mp member with early | late
    · exact brings.fits attempt early
    · exact fits attempt late
  · rw [netifs, brings.netifs, List.filterMap_append]
  · rw [Runs.observed_snoc]
    exact asked
  · exact addressed
  · exact pipes
  · exact log
  · intro entry member
    rw [Runs.observed_snoc] at member
    rcases List.mem_append.mp member with early | late
    · exact (brings.used entry early).more more
    · exact (transfer entry late).more more

/-- A step that ends no attempt and leaves the interfaces and the pipes alone. -/
theorem BringsUp.goOn (brings : BringsUp usb firmware tcpipInput steps klsi attempts)
    (call : current usb firmware klsi ++ calls usb firmware klsi action =
      current usb firmware next)
    (netifs : next.netifs = klsi.netifs) (hin : next.hin = klsi.hin) (hout : next.hout = klsi.hout)
    (asked : Asked (Runs.observed answers steps ++ answers klsi action) attempts next.place)
    (log : next.udpLogInit ≠ 0 → next.netifs ≠ [])
    (transfer : ∀ entry ∈ transfers tcpipInput klsi action, OnPipe tcpipInput attempts entry) :
    BringsUp usb firmware tcpipInput (steps ++ [(klsi, action)]) next attempts := by
  have extended :
      BringsUp usb firmware tcpipInput (steps ++ [(klsi, action)]) next (attempts ++ []) := by
    refine brings.extend [] call (by simp) ?_ ?_ ?_ ?_ log transfer
    · rw [netifs, List.filterMap_nil, List.append_nil]
    · rw [List.append_nil]
      exact asked
    · rw [List.append_nil]
      exact brings.addressed
    · rw [netifs, hin, hout, List.append_nil]
      exact brings.pipes
  rwa [List.append_nil] at extended

/-- Where no answer comes, `eaddr` stays what the answers made of it. -/
theorem eaddr_quiet {eaddr : List UInt8}
    (same : eaddr = (Runs.observed answers steps).foldl readInto factoryAddress)
    (no : answers klsi action = []) :
    eaddr = (Runs.observed answers (steps ++ [(klsi, action)])).foldl readInto factoryAddress := by
  rw [Runs.observed_snoc, no, List.append_nil, same]

/-- Only the request for the address has an answer that is kept. -/
theorem answers_other {err : Int} {data : List UInt8} {device control : Int} {stage : Stage}
    (here : klsi.place = .waiting device control stage) (other : stage ≠ .readMac) :
    answers klsi (.complete err data) = [] := by
  cases stage with
  | readMac => exact absurd rfl other
  | codeSeg | fixSeg | trigSeg | reset | setMac | pktFilter | sofs | urbSize =>
    simp only [answers, here]

/-- A read fills the place of the address and no more, whatever it gives. -/
theorem readInto_length (eaddr data : List UInt8) : (readInto eaddr data).length = eaddr.length := by
  simp only [readInto, List.length_append, List.length_take, List.length_drop]
  omega

/-- So the address has six bytes after any answers. -/
theorem foldl_readInto_length (given : List (List UInt8)) :
    (given.foldl readInto factoryAddress).length = 6 := by
  induction given using List.reverseRecOn with
  | nil => rfl
  | append_singleton early last inductionHypothesis =>
    rw [List.foldl_append, List.foldl_cons, List.foldl_nil, readInto_length, inductionHypothesis]

/-- What is outside of `usb_klsi_attach` makes no calls for it. -/
theorem kept_probe {deviceID : Int} (kept : Kept usb firmware tcpipInput steps klsi)
    (here : klsi.place = .outside) :
    Kept usb firmware tcpipInput (steps ++ [(klsi, .probe deviceID)])
      { klsi with global := deviceID, place := .outside } := by
  obtain ⟨⟨attempts, brings⟩, -, -, eaddr⟩ := kept
  refine ⟨⟨attempts, brings.goOn ?_ rfl rfl rfl ?_ brings.log nofun⟩, trivial, ?_, eaddr_quiet eaddr rfl⟩
  · simp only [current, here, calls, List.append_nil]
  · exact brings.asked.quiet rfl (by rw [here])
  · intro settling
    cases settling

/-- A call of `usb_klsi_attach` that gives up before its first request has only looked at
endpoints. -/
theorem kept_refused {deviceID control : Int} {eps : Endpoints}
    (kept : Kept usb firmware tcpipInput steps klsi)
    (here : klsi.place = .outside)
    (taken : klsi.step usb (.attach deviceID control) = some { klsi with eps := eps }) :
    Kept usb firmware tcpipInput (steps ++ [(klsi, .attach deviceID control)])
      { klsi with eps := eps } := by
  obtain ⟨⟨attempts, brings⟩, -, settling, eaddr⟩ := kept
  refine ⟨⟨attempts, brings.goOn ?_ rfl rfl rfl (brings.asked.quiet rfl rfl) brings.log nofun⟩, ?_,
    settling, eaddr_quiet eaddr rfl⟩
  · simp only [current, here, calls, taken, List.append_nil]
  · simp only [Stands, here]

/-- The first request goes to the device that was probed last. -/
theorem kept_begin {deviceID control : Int} (kept : Kept usb firmware tcpipInput steps klsi)
    (here : klsi.place = .outside) (recognised : usbKlsiProbe (usb klsi.global).device = true)
    (taken : klsi.step usb (.attach deviceID control) = some { klsi with
      eps := klsi.eps.scan (usb klsi.global)
      cepid := control
      place := .waiting klsi.global control
        (if (usb klsi.global).load then .codeSeg else .reset) }) :
    Kept usb firmware tcpipInput (steps ++ [(klsi, .attach deviceID control)]) { klsi with
      eps := klsi.eps.scan (usb klsi.global)
      cepid := control
      place := .waiting klsi.global control
        (if (usb klsi.global).load then .codeSeg else .reset) } := by
  obtain ⟨⟨attempts, brings⟩, -, -, eaddr⟩ := kept
  obtain ⟨epin, epout⟩ := scan_finds klsi.eps (usb klsi.global)
  refine ⟨⟨attempts, brings.goOn ?_ rfl rfl rfl ?_ brings.log nofun⟩, ?_, ?_, eaddr_quiet eaddr rfl⟩
  · simp only [current, here, calls, taken, entered, setupAt]
    cases (usb klsi.global).load <;> rfl
  · refine brings.asked.quiet rfl ?_
    rw [here]
    cases (usb klsi.global).load <;> rfl
  · refine ⟨⟨recognised, rfl, rfl, epin, epout⟩, ?_⟩
    cases load : (usb klsi.global).load with
    | true => exact fun _ => rfl
    | false => exact fun loads => by cases loads
  · intro settling
    cases settling

/-- The firmware is given up, and with it the attempt.

Proof: the attempt becomes one that was given up. It has not come to the request for the
address, so the answers are as they were. -/
theorem kept_abandon {err : Int} {data : List UInt8} {device control : Int} {stage : Stage}
    (kept : Kept usb firmware tcpipInput steps klsi) (here : klsi.place = .waiting device control stage)
    (loads : stage.loads = true)
    (taken : klsi.step usb (.complete err data) = some { klsi with place := .outside }) :
    Kept usb firmware tcpipInput (steps ++ [(klsi, .complete err data)])
      { klsi with place := .outside } := by
  obtain ⟨⟨attempts, brings⟩, stands, -, eaddr⟩ := kept
  simp only [Stands, here] at stands
  have other : stage ≠ .readMac := by
    rintro rfl
    cases loads
  have noRead : klsi.place.hasRead = false := by
    rw [here]
    cases stage with
    | codeSeg | fixSeg | trigSeg | reset | readMac => rfl
    | setMac | pktFilter | sofs | urbSize => cases loads
  have noGiven : [Attempt.abandoned (setupAt usb klsi device control) stage].filterMap
      Attempt.given = [] := rfl
  have noHwaddr : [Attempt.abandoned (setupAt usb klsi device control) stage].filterMap
      Attempt.hwaddr = [] := rfl
  refine ⟨⟨attempts ++ [.abandoned (setupAt usb klsi device control) stage], ?_⟩, trivial, ?_,
    eaddr_quiet eaddr (answers_other here other)⟩
  · refine brings.extend _ ?_ ?_ ?_ ?_ ?_ (fun some => (brings.pipes some).more _) brings.log ?_
    · simp only [current, here, calls, taken, entered, List.flatMap_cons, List.flatMap_nil,
        List.append_nil, Attempt.calls]
    · intro attempt member
      obtain rfl := List.mem_singleton.mp member
      exact ⟨stands.1.recognised, rfl, stands.2 loads, loads⟩
    · simp [Attempt.hwaddr]
    · obtain ⟨pending, whole, length⟩ : Asked _ attempts Place.outside :=
        brings.asked.quiet (answers_other here other) noRead.symm
      refine ⟨pending, ?_, length⟩
      rw [whole, List.filterMap_append, noGiven, List.append_nil]
    · rw [List.filterMap_append, List.filterMap_append, noGiven, noHwaddr, List.append_nil,
        List.append_nil, brings.addressed]
    · simp [transfers]
  · intro settling
    cases settling

/-- The next request follows.

Proof: what the attempt has done is extended by the request that follows. The answer is
kept aside where it is the address, since the attempt has asked for one then. -/
theorem kept_next {err : Int} {data : List UInt8} {device control : Int} {stage later : Stage}
    (kept : Kept usb firmware tcpipInput steps klsi) (here : klsi.place = .waiting device control stage)
    (next : stage.next = some later)
    (taken : klsi.step usb (.complete err data) = some { klsi with
      eaddr := if stage = .readMac then readInto klsi.eaddr data else klsi.eaddr
      place := .waiting device control later }) :
    Kept usb firmware tcpipInput (steps ++ [(klsi, .complete err data)]) { klsi with
      eaddr := if stage = .readMac then readInto klsi.eaddr data else klsi.eaddr
      place := .waiting device control later } := by
  obtain ⟨⟨attempts, brings⟩, stands, -, eaddr⟩ := kept
  simp only [Stands, here] at stands
  obtain ⟨⟨recognised, global, cepid, epin, epout⟩, load⟩ := stands
  refine ⟨⟨attempts, brings.goOn ?_ rfl rfl rfl ?_ brings.log nofun⟩,
    ⟨⟨recognised, global, cepid, epin, epout⟩, ?_⟩, ?_, ?_⟩
  · have onward : Setup.upTo firmware { setupAt usb klsi device control with
          mac := if stage = .readMac then readInto klsi.eaddr data else klsi.eaddr } later =
        (setupAt usb klsi device control).upTo firmware stage ++ [.request control
          (later.request firmware
            (if stage = .readMac then readInto klsi.eaddr data else klsi.eaddr))] :=
      upTo_next firmware next load fun other => if_neg other
    simp only [current, here, calls, taken, entered, cepid]
    exact onward.symm
  · by_cases asks : stage = .readMac
    · subst asks
      obtain rfl := Option.some.inj next
      obtain ⟨pending, whole, length⟩ := brings.asked
      simp only [here, Place.hasRead, Bool.false_eq_true, if_false, List.length_eq_zero_iff] at length
      refine ⟨[data], ?_, rfl⟩
      rw [whole, length, List.append_nil]
      simp only [answers, here]
    · refine brings.asked.quiet (answers_other here asks) ?_
      rw [here]
      cases stage with
      | readMac => exact absurd rfl asks
      | reset | urbSize => cases next
      | codeSeg | fixSeg | trigSeg | setMac | pktFilter | sofs =>
        obtain rfl := Option.some.inj next
        rfl
  · intro loads
    refine load ?_
    cases stage with
    | codeSeg | fixSeg | trigSeg => rfl
    | reset | urbSize => cases next
    | readMac | setMac | pktFilter | sofs =>
      obtain rfl := Option.some.inj next
      cases loads
  · intro settling
    cases settling
  · change (if stage = .readMac then readInto klsi.eaddr data else klsi.eaddr) = _
    split
    next asks =>
      subst asks
      rw [Runs.observed_snoc, List.foldl_append, ← eaddr]
      simp only [answers, here, List.foldl_cons, List.foldl_nil]
    next other => exact eaddr_quiet eaddr (answers_other here other)

/-- The delay of the reset begins, or the pipes come next: nothing is called. -/
theorem kept_answered {err : Int} {data : List UInt8} {device control : Int} {stage : Stage}
    {place : Place} (kept : Kept usb firmware tcpipInput steps klsi)
    (here : klsi.place = .waiting device control stage)
    (goes : (stage = .reset ∧ place = .resetting device control) ∨
      (stage = .urbSize ∧ place = .opening device control))
    (taken : klsi.step usb (.complete err data) = some { klsi with place := place }) :
    Kept usb firmware tcpipInput (steps ++ [(klsi, .complete err data)])
      { klsi with place := place } := by
  obtain ⟨⟨attempts, brings⟩, stands, -, eaddr⟩ := kept
  simp only [Stands, here] at stands
  rcases goes with ⟨rfl, rfl⟩ | ⟨rfl, rfl⟩
  all_goals
    have quiet : answers klsi (.complete err data) = [] := answers_other here (by decide)
    refine ⟨⟨attempts, brings.goOn ?_ rfl rfl rfl ?_ brings.log nofun⟩, stands.1.goOn _, ?_,
      eaddr_quiet eaddr quiet⟩
    · simp only [current, here, calls, taken, entered, List.append_nil]
      rfl
    · exact brings.asked.quiet quiet (by rw [here]; rfl)
    · intro settling
      cases settling

/-- Behind the delay of the reset the address is read. -/
theorem kept_resumed {device control : Int} (kept : Kept usb firmware tcpipInput steps klsi)
    (here : klsi.place = .resetting device control)
    (taken : klsi.step usb .delayed = some { klsi with place := .waiting device control .readMac }) :
    Kept usb firmware tcpipInput (steps ++ [(klsi, .delayed)])
      { klsi with place := .waiting device control .readMac } := by
  obtain ⟨⟨attempts, brings⟩, stands, -, eaddr⟩ := kept
  simp only [Stands, here] at stands
  refine ⟨⟨attempts, brings.goOn ?_ rfl rfl rfl ?_ brings.log nofun⟩, ⟨stands.goOn _, ?_⟩, ?_,
    eaddr_quiet eaddr rfl⟩
  · simp only [current, here, calls, taken, entered, stands.cepid]
    exact (upTo_readMac firmware (setupAt usb klsi device control)).symm
  · exact brings.asked.quiet rfl (by rw [here]; rfl)
  · intro loads
    cases loads
  · intro settling
    cases settling

/-- Behind the last delay `udp_log` may send. -/
theorem kept_settled (kept : Kept usb firmware tcpipInput steps klsi) (here : klsi.place = .settling)
    (taken : klsi.step usb .delayed = some { klsi with udpLogInit := 1, place := .outside }) :
    Kept usb firmware tcpipInput (steps ++ [(klsi, .delayed)])
      { klsi with udpLogInit := 1, place := .outside } := by
  obtain ⟨⟨attempts, brings⟩, -, settling, eaddr⟩ := kept
  refine ⟨⟨attempts, brings.goOn ?_ rfl rfl rfl ?_ (fun _ => settling here) nofun⟩, trivial, ?_,
    eaddr_quiet eaddr rfl⟩
  · simp only [current, here, calls, taken, entered, List.append_nil]
  · exact brings.asked.quiet rfl (by rw [here]; rfl)
  · intro settles
    cases settles

/-- The pipes are opened on the endpoints that were found, and the interface is added.

Proof: the attempt becomes a session, with the pipes as they were opened. The answers that
attempts have asked for and not used are one, the address of this one. -/
theorem kept_opened {hin hout device control : Int} (kept : Kept usb firmware tcpipInput steps klsi)
    (here : klsi.place = .opening device control)
    (taken : klsi.step usb (.opened hin hout) = some { klsi with
      hin := hin, hout := hout, netifs := klsi.netifs ++ [klsi.eaddr], place := .settling }) :
    Kept usb firmware tcpipInput (steps ++ [(klsi, .opened hin hout)]) { klsi with
      hin := hin, hout := hout, netifs := klsi.netifs ++ [klsi.eaddr], place := .settling } := by
  obtain ⟨⟨attempts, brings⟩, stands, -, eaddr⟩ := kept
  simp only [Stands, here] at stands
  obtain ⟨recognised, global, cepid, epin, epout⟩ := stands
  -- The attempt asked for the address once: `given` is the answer.
  obtain ⟨pending, whole, length⟩ := brings.asked
  simp only [here, Place.hasRead, if_true] at length
  obtain ⟨given, rfl⟩ := List.length_eq_one_iff.mp length
  let session : Session := ⟨setupAt usb klsi device control, given, (usb device).eds klsi.eps.epin,
    (usb device).eds klsi.eps.epout, hin, hout⟩
  have address : klsi.eaddr =
      (attempts.filterMap Attempt.given ++ [given]).foldl readInto factoryAddress := whole ▸ eaddr
  refine ⟨⟨attempts ++ [.ended session], ?_⟩, trivial, ?_, eaddr_quiet eaddr rfl⟩
  · refine brings.extend [.ended session] ?_ ?_ ?_ ?_ ?_ ?_ ?_ ?_
    · simp only [current, here, calls, taken, global, List.flatMap_cons, List.flatMap_nil,
        List.append_nil]
      rfl
    · intro attempt member
      obtain rfl := List.mem_singleton.mp member
      have six : klsi.eaddr.length = 6 := address ▸ foldl_readInto_length _
      exact ⟨recognised, rfl, six, ⟨klsi.eps.epin, rfl, epin⟩, klsi.eps.epout, rfl, epout⟩
    · rfl
    · refine ⟨[], ?_, rfl⟩
      rw [whole, List.filterMap_append, List.append_nil]
      exact List.append_nil _
    · rw [List.filterMap_append, List.filterMap_append, brings.addressed,
        show [Attempt.ended session].filterMap Attempt.hwaddr = [klsi.eaddr] from rfl,
        show [Attempt.ended session].filterMap Attempt.given = [given] from rfl,
        List.scanl_append, List.tail_append_of_ne_nil List.scanl_ne_nil, List.scanl_singleton,
        List.tail_cons, address, List.foldl_append, List.foldl_cons, List.foldl_nil]
    · exact fun _ => ⟨session, List.mem_append_right _ (List.mem_singleton.mpr rfl), rfl, rfl⟩
    · exact fun _ => List.append_ne_nil_of_right_ne_nil _ (List.cons_ne_nil _ _)
    · simp [transfers]
  · exact fun _ => List.append_ne_nil_of_right_ne_nil _ (List.cons_ne_nil _ _)

/-- A transfer is on a pipe that was opened: its user came with an interface. -/
theorem kept_transfer {user : User} (kept : Kept usb firmware tcpipInput steps klsi)
    (may : klsi.mayTransfer user = true) :
    Kept usb firmware tcpipInput (steps ++ [(klsi, .transfer user)]) klsi := by
  obtain ⟨⟨attempts, brings⟩, stands, settling, eaddr⟩ := kept
  have some : klsi.netifs ≠ [] := by
    cases user with
    | reader netif | sender netif | arp netif =>
      have inside : netif < klsi.netifs.length := by simpa [Klsi.mayTransfer] using may
      exact List.ne_nil_of_length_pos (Nat.zero_lt_of_lt inside)
    | log => exact brings.log (by simpa [Klsi.mayTransfer] using may)
  have opened := brings.pipes some
  refine ⟨⟨attempts, ?_⟩, stands, settling, eaddr_quiet eaddr rfl⟩
  refine brings.goOn ?_ rfl rfl rfl (brings.asked.quiet rfl rfl) brings.log ?_
  · simp only [calls, List.append_nil]
  · intro entry member
    obtain rfl := List.mem_singleton.mp member
    cases user with
    | reader netif => exact ⟨klsi.hout, opened⟩
    | sender netif | log => exact ⟨klsi.hin, opened⟩
    | arp netif => exact rfl

/-- Every step keeps it, one case for each move. -/
theorem step_kept (kept : Kept usb firmware tcpipInput steps klsi)
    (taken : klsi.step usb action = some next) :
    Kept usb firmware tcpipInput (steps ++ [(klsi, action)]) next := by
  cases step_moves usb taken with
  | probe here => exact kept_probe kept here
  | refused here eps => exact kept_refused kept here taken
  | begin here recognised => exact kept_begin kept here recognised taken
  | abandon here loads => exact kept_abandon kept here loads taken
  | next here next => exact kept_next kept here next taken
  | reset here => exact kept_answered kept here (Or.inl ⟨rfl, rfl⟩) taken
  | last here => exact kept_answered kept here (Or.inr ⟨rfl, rfl⟩) taken
  | resumed here => exact kept_resumed kept here taken
  | settled here => exact kept_settled kept here taken
  | opened here => exact kept_opened kept here taken
  | transfer may => exact kept_transfer kept may

/-- The driver as it is loaded. -/
def Klsi.loaded : Klsi := ⟨0, 0, factoryAddress, ⟨0, 0, 0⟩, 0, 0, 0, [], .outside⟩

end BringUp

end Ps2Eth.Ps2klsi.Attach
