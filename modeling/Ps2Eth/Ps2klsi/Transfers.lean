import Ps2Eth.Lib.Runs
import Ps2Eth.Ps2klsi.LinkOutput

/-!
# USB transfers of the ps2klsi driver

`kue_do_transfer` and `kue_transfer_callback` of `ps2klsi/driver.c` under
`low_level_output` and `readthread` of `ps2klsi/ps2eth.c`. A call starts a
transfer, blocks on a semaphore, and returns `transferBytes` once it runs again.
All calls share that variable, and all frames that are sent share `outbuffer`.

The pipe and the semaphore of a transfer are handles that are read from memory
when it starts. The read thread takes them from `klsi_etherif`, and so does
`low_level_output` when `ethernetif_output` calls it for an IP packet. ARP frames,
the requests of senders and the replies of the read thread, reach it through
`netif->linkoutput`: it then reads both handles in the `netif` record.

A step takes one thread from where it may run to the next `WaitSema`, is one
callback, or is something that other code does. Each transfer remembers the thread
that started it, and what a callback reports is recorded, for the statements only.
-/

namespace Ps2Eth.Ps2klsi

open CRecords

/-- The size of `inbuffer`, which is what the read thread asks for. -/
def inbufferSize : Nat := 1500

/-- The two kinds of calls of `kue_do_transfer`: that of the read thread for the next
frame, and that of `low_level_output`. -/
inductive Direction where
  | bulkIn
  | bulkOut
deriving DecidableEq

/-- The read thread and the senders, of which there may be any number. -/
inductive Thread (τ : Type) where
  | read
  | sender (t : τ)
deriving DecidableEq

/-- The two ways to `low_level_output`: an IP packet comes from `ethernetif_output`, an ARP
frame through `netif->linkoutput`. -/
inductive Entry where
  | ethernetifOutput
  | linkoutput
deriving DecidableEq

/-- The record that `low_level_output` gets for a `struct ethernetif`: the one that
`netif->state` points to, or the `netif` record itself. -/
def Entry.record (m : Memory) (netif : Nat) : Entry → Nat
  | .ethernetifOutput => m.load32 (netif + Netif.offset .state)
  | .linkoutput => netif

/-- The member of `klsi_etherif` with the handle of a pipe. -/
def Direction.pipeField : Direction → Ethernetif.Field
  | .bulkIn => .hin
  | .bulkOut => .hout

/-- The member of `klsi_etherif` with the handle of a semaphore. -/
def Direction.semaField : Direction → Ethernetif.Field
  | .bulkIn => .hsemin
  | .bulkOut => .hsemout

/-- The handle of a pipe of the driver, as `klsi_etherif` has it. -/
def ownPipe (image : Image) (m : Memory) (direction : Direction) : Nat :=
  m.load32 (image.klsiEtherif + Ethernetif.offset direction.pipeField)

/-- The handle of a semaphore of the driver, as `klsi_etherif` has it. -/
def ownSema (image : Image) (m : Memory) (direction : Direction) : Nat :=
  m.load32 (image.klsiEtherif + Ethernetif.offset direction.semaField)

/-- A transfer of the USB driver, with its number, the thread that started it and the
semaphore that its callback signals. `frame` is what was to be sent. -/
structure Transfer (τ : Type) where
  id : Nat
  thread : Thread τ
  sema : Nat
  len : Nat
  frame : Option PBuf

/-- A semaphore: its count, and the threads that wait, the first of which is woken. -/
structure Sema (τ : Type) where
  count : Nat
  waiting : List (Thread τ)

/-- Where a thread stands: outside of `kue_do_transfer`, blocked in its `WaitSema`
with the transfer it started, or woken and about to run. -/
inductive Status where
  | outside
  | blocked (semh : Nat) (direction : Direction) (id : Nat)
  | woken (direction : Direction) (id : Nat)
deriving DecidableEq

/-- The driver's data, the transfers in flight on each pipe, the semaphores and the
threads. `memory` is where the handles are read, `reported` what the callbacks reported. -/
structure State (τ : Type) where
  memory : Memory
  transferBytes : Int
  transferResult : Int
  outbuffer : Nat → UInt8
  pipe : Nat → List (Transfer τ)
  sema : Nat → Sema τ
  status : Thread τ → Status
  started : Nat
  reported : Nat → Option Int

/-- What can happen next: in one of the threads, in the USB driver, or in other code. -/
inductive Action (τ : Type) where
  /-- A sender gets to `low_level_output`, with an IP packet or an ARP request. -/
  | output (t : τ) (entry : Entry) (p : PBuf)
  /-- The read thread starts. -/
  | start
  /-- A thread that was woken runs. If it is the read thread and the frame it got is an
  ARP request for this interface, `reply` is the answer that `etharp_arp_input` sends. -/
  | run (thread : Thread τ) (reply : Option PBuf)
  /-- A transfer of a pipe is complete. -/
  | callback (epid position : Nat) (resultCode bytes : Int)
  /-- The `WaitSema` of a thread returns that had a handle of neither semaphore of the
  driver: there is no such semaphore, or other code signals its own. -/
  | foreign (thread : Thread τ)
  /-- Other code writes a byte of memory that is in no member of the two records that is
  read. -/
  | store (address : Nat) (byte : UInt8)

/-- The address lies in a member of a record that is read. -/
def Reads {Field : Type} (members : List (Member Field)) (offset : Field → Nat)
    (reads : Field → Bool) (record address : Nat) : Prop :=
  ∃ member ∈ members, reads member.field = true ∧ record + offset member.field ≤ address ∧
    address < record + offset member.field + member.size

/-- It is found by looking at every member. -/
instance {Field : Type} (members : List (Member Field)) (offset : Field → Nat)
    (reads : Field → Bool) (record address : Nat) :
    Decidable (Reads members offset reads record address) :=
  inferInstanceAs (Decidable (∃ member ∈ members, _))

/-- The address lies in neither record, as far as they are read. -/
def Spares (image : Image) (netif address : Nat) : Prop :=
  ¬ Reads Netif.members Netif.offset Netif.reads netif address ∧
    ¬ Reads Ethernetif.members Ethernetif.offset Ethernetif.reads image.klsiEtherif address

/-- So is this, for the two records. -/
instance (image : Image) (netif address : Nat) : Decidable (Spares image netif address) :=
  inferInstanceAs (Decidable (_ ∧ _))

section Machine

variable {τ : Type} [DecidableEq τ] (image : Image) (netif : Nat)

namespace State

variable (state : State τ)

/-- The status of one thread changes. -/
def setStatus (thread : Thread τ) (status : Status) : State τ :=
  { state with status := Function.update state.status thread status }

/-- The status that was set is the one of the thread. -/
@[simp] theorem setStatus_same (thread : Thread τ) (status : Status) :
    (state.setStatus thread status).status thread = status := Function.update_self ..

/-- No other thread's status changes with it. -/
theorem setStatus_other {thread other : Thread τ} (apart : other ≠ thread) (status : Status) :
    (state.setStatus thread status).status other = state.status other := Function.update_of_ne apart ..

/-- One semaphore changes, the others keep their count and their threads. -/
def setSema (semh : Nat) (sema : Sema τ) : State τ :=
  { state with sema := Function.update state.sema semh sema }

/-- Whether a handle is that of one of the driver's two semaphores. -/
def owns (semh : Nat) : Bool :=
  semh == ownSema image state.memory .bulkIn || semh == ownSema image state.memory .bulkOut

/-- `WaitSema`. With a handle that is not one of the driver's, the thread waits for
whatever other code does. -/
def waitSema (thread : Thread τ) (semh : Nat) (direction : Direction) (id : Nat) : State τ :=
  let sema := state.sema semh
  if !state.owns image semh then state.setStatus thread (.blocked semh direction id)
  else if 0 < sema.count then
    (state.setSema semh { sema with count := sema.count - 1 }).setStatus thread (.woken direction id)
  else
    (state.setSema semh { sema with waiting := sema.waiting ++ [thread] }).setStatus thread
      (.blocked semh direction id)

/-- What a thread in `WaitSema` becomes when the semaphore is signalled. -/
def wake (status : Status) : Status :=
  match status with
  | .blocked _ direction id => .woken direction id
  | other => other

/-- `SignalSema`. The largest count of both semaphores is 1. -/
def signalSema (semh : Nat) : State τ :=
  let sema := state.sema semh
  if !state.owns image semh then state
  else
    match sema.waiting with
    | [] => state.setSema semh { sema with count := min 1 (sema.count + 1) }
    | thread :: rest =>
        (state.setSema semh { sema with waiting := rest }).setStatus thread
          (wake (state.status thread))

/-- `kue_do_transfer`, up to its `WaitSema`. With a handle that is not that of an open pipe
there is no callback. -/
def kueDoTransfer (thread : Thread τ) (direction : Direction) (epid semh len : Nat)
    (frame : Option PBuf) : State τ :=
  let transfer : Transfer τ := ⟨state.started, thread, semh, len, frame⟩
  let submitted : State τ := { state with
    started := state.started + 1
    pipe := Function.update state.pipe epid (state.pipe epid ++ [transfer]) }
  submitted.waitSema image thread semh direction state.started

/-- `low_level_output`, up to the `WaitSema` of its transfer. -/
def lowLevelOutput (thread : Thread τ) (entry : Entry) (p : PBuf) : State τ :=
  let bulk := Ps2klsi.lowLevelOutput state.memory (entry.record state.memory netif) state.outbuffer p
  { state with outbuffer := fillOutbuffer state.outbuffer p }.kueDoTransfer image thread .bulkOut
    bulk.pipe bulk.sema (p.totLen + 2) (some p)

/-- The read thread goes on: `etharp_arp_input` sends a reply, or the next frame is asked
for. -/
def readThread : Option PBuf → State τ
  | none => state.kueDoTransfer image .read .bulkIn (ownPipe image state.memory .bulkIn)
      (ownSema image state.memory .bulkIn) inbufferSize none
  | some reply => state.lowLevelOutput image netif .read .linkoutput reply

/-- What the read thread sends as it runs from a call: the reply to the frame that it got,
if its bytes were more than one, and nothing behind a reply. -/
def toSend (direction : Direction) (reply : Option PBuf) : Option PBuf :=
  match direction with
  | .bulkIn => if 1 < state.transferBytes then reply else none
  | .bulkOut => none

/-- A thread runs from a `WaitSema` of `kue_do_transfer`, which returns
`transferBytes`. -/
def resume (thread : Thread τ) (direction : Direction) (reply : Option PBuf) : State τ :=
  match thread with
  | .sender _ => state.setStatus thread .outside
  | .read => state.readThread image netif (state.toSend direction reply)

/-- `kue_transfer_callback`, for the transfer at a position of its pipe. -/
def kueTransferCallback (epid : Nat) (transfer : Transfer τ) (position : Nat)
    (resultCode bytes : Int) : State τ :=
  let done : State τ := { state with
    pipe := Function.update state.pipe epid ((state.pipe epid).eraseIdx position)
    transferResult := resultCode
    transferBytes := bytes
    reported := Function.update state.reported transfer.id (some bytes) }
  done.signalSema image transfer.sema

/-- One step, if it is possible. -/
def step : Action τ → Option (State τ)
  | .output t entry p =>
      match state.status (.sender t) with
      | .outside => some (state.lowLevelOutput image netif (.sender t) entry p)
      | _ => none
  | .start =>
      match state.status .read with
      | .outside => some (state.readThread image netif none)
      | _ => none
  | .run thread reply =>
      match state.status thread with
      | .woken direction _ => some (state.resume image netif thread direction reply)
      | _ => none
  | .callback epid position resultCode bytes =>
      (state.pipe epid)[position]?.map fun transfer =>
        state.kueTransferCallback image epid transfer position resultCode bytes
  | .foreign thread =>
      match state.status thread with
      | .blocked semh direction id =>
          if state.owns image semh then none else some (state.setStatus thread (.woken direction id))
      | _ => none
  | .store address byte =>
      if Spares image netif address then some { state with memory := state.memory.store8 address byte }
      else none

end State

/-- The records are set up: IP packets get the driver's record, whose two pipes and whose
two semaphores are different ones. -/
structure Wired (m : Memory) : Prop where
  state : m.load32 (netif + Netif.offset .state) = image.klsiEtherif
  pipes : ownPipe image m .bulkIn ≠ ownPipe image m .bulkOut
  semas : ownSema image m .bulkIn ≠ ownSema image m .bulkOut

/-- The records are set up, nothing is in flight and no thread is in `kue_do_transfer`. -/
structure Started (state : State τ) : Prop where
  wired : Wired image netif state.memory
  pipe : ∀ epid, state.pipe epid = []
  sema : ∀ semh, state.sema semh = ⟨0, []⟩
  status : ∀ thread, state.status thread = .outside

/-- What a step returns from `kue_do_transfer`, with the number of the call's own
transfer. -/
def returns (state : State τ) : Action τ → Option (Nat × Int)
  | .run thread _ =>
      match state.status thread with
      | .woken _ id => some (id, state.transferBytes)
      | _ => none
  | _ => none

/-- The frame for which a step calls `low_level_output`, and the way it takes. -/
def sends (state : State τ) : Action τ → Option (Entry × PBuf)
  | .output _ entry p => some (entry, p)
  | .run .read reply =>
      match state.status .read with
      | .woken direction _ => (state.toSend direction reply).map (Entry.linkoutput, ·)
      | _ => none
  | _ => none

/-- What each step does, said once with the guard under which it is taken. -/
inductive Moves (state : State τ) : Action τ → State τ → Prop where
  | output {t : τ} {entry : Entry} {p : PBuf} (here : state.status (.sender t) = .outside) :
      Moves state (.output t entry p) (state.lowLevelOutput image netif (.sender t) entry p)
  | start (here : state.status .read = .outside) :
      Moves state .start (state.readThread image netif none)
  | leaves {t : τ} {reply : Option PBuf} {direction : Direction} {id : Nat}
      (here : state.status (.sender t) = .woken direction id) :
      Moves state (.run (.sender t) reply) (state.setStatus (.sender t) .outside)
  | reads {reply : Option PBuf} {direction : Direction} {id : Nat}
      (here : state.status .read = .woken direction id) :
      Moves state (.run .read reply) (state.readThread image netif (state.toSend direction reply))
  | callback {epid position : Nat} {resultCode bytes : Int} {transfer : Transfer τ}
      (found : (state.pipe epid)[position]? = some transfer) :
      Moves state (.callback epid position resultCode bytes)
        (state.kueTransferCallback image epid transfer position resultCode bytes)
  | foreign {thread : Thread τ} {semh : Nat} {direction : Direction} {id : Nat}
      (here : state.status thread = .blocked semh direction id)
      (other : state.owns image semh = false) :
      Moves state (.foreign thread) (state.setStatus thread (.woken direction id))
  | store {address : Nat} {byte : UInt8} (spares : Spares image netif address) :
      Moves state (.store address byte) { state with memory := state.memory.store8 address byte }

/-- Every step is one of the moves. -/
theorem step_moves {state next : State τ} {action : Action τ}
    (taken : state.step image netif action = some next) : Moves image netif state action next := by
  cases action with
  | output t entry p =>
    cases here : state.status (.sender t) with
    | outside =>
      simp only [State.step, here, Option.some.injEq] at taken
      subst next
      exact .output here
    | blocked | woken => simp [State.step, here] at taken
  | start =>
    cases here : state.status .read with
    | outside =>
      simp only [State.step, here, Option.some.injEq] at taken
      subst next
      exact .start here
    | blocked | woken => simp [State.step, here] at taken
  | run thread reply =>
    cases here : state.status thread with
    | woken direction id =>
      simp only [State.step, here, Option.some.injEq] at taken
      subst next
      cases thread with
      | sender t => exact .leaves here
      | read => exact .reads here
    | outside | blocked => simp [State.step, here] at taken
  | callback epid position resultCode bytes =>
    simp only [State.step] at taken
    obtain ⟨transfer, found, rfl⟩ := Option.map_eq_some_iff.mp taken
    exact .callback found
  | foreign thread =>
    cases here : state.status thread with
    | blocked semh direction id =>
      simp only [State.step, here, Option.ite_none_left_eq_some, Option.some.injEq] at taken
      obtain ⟨other, rfl⟩ := taken
      exact .foreign here (Bool.eq_false_iff.mpr other)
    | outside | woken => simp [State.step, here] at taken
  | store address byte =>
    simp only [State.step, Option.ite_none_right_eq_some, Option.some.injEq] at taken
    obtain ⟨spares, rfl⟩ := taken
    exact .store spares

end Machine
end Ps2Eth.Ps2klsi
