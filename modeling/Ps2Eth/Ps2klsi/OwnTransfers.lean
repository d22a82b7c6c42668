import Ps2Eth.Ps2klsi.Transfers

/-!
# Transfers that stay apart

While at most one bulk-out transfer is in flight, every woken thread runs before
the next callback, and ARP frames happen to find the driver's own handles, each
pipe has one transfer and its own thread waits for it, so the callback reaches that
thread and `transferBytes` is still its own when it returns. A second sender
overwrites `outbuffer` and waits on the same semaphore; a second callback overwrites
`transferBytes`.

The invariant `Kept` describes the two pipes of the driver as lanes. Each step keeps
it under the condition `Apart`, and the run lemma follows by induction on the run.
-/

namespace Ps2Eth.Ps2klsi

open CRecords

section Lanes

variable {τ : Type} (image : Image)

/-- A pipe of the driver with at most one transfer, whose thread waits for it on the
semaphore of that pipe. -/
inductive Lane (state : State τ) (direction : Direction) : Prop where
  | empty (pipe : state.pipe (ownPipe image state.memory direction) = [])
      (sema : state.sema (ownSema image state.memory direction) = ⟨0, []⟩)
  | one (transfer : Transfer τ) (pipe : state.pipe (ownPipe image state.memory direction) = [transfer])
      (sema : state.sema (ownSema image state.memory direction) = ⟨0, [transfer.thread]⟩)
      (own : transfer.sema = ownSema image state.memory direction)
      (blocked : state.status transfer.thread =
        .blocked (ownSema image state.memory direction) direction transfer.id)
      (reader : direction = .bulkIn → transfer.thread = .read)
      (holds : ∀ p, transfer.frame = some p → direction = .bulkOut ∧ Holds state.outbuffer p)

/-- What holds while transfers stay apart: the records are as they were set up, both pipes
of the driver are lanes and no other pipe has a transfer, every thread in `WaitSema` waits
on the semaphore of its lane, and a thread that was woken will return what was reported
for its own transfer. -/
structure Kept (netif : Nat) (state : State τ) : Prop where
  wired : Wired image netif state.memory
  lane : ∀ direction, Lane image state direction
  nowhere : ∀ epid, (∀ direction, epid ≠ ownPipe image state.memory direction) → state.pipe epid = []
  blocked : ∀ thread semh direction id, state.status thread = .blocked semh direction id →
    semh = ownSema image state.memory direction
  woken : ∀ thread direction id, state.status thread = .woken direction id →
    state.reported id = some state.transferBytes

variable {image} {netif : Nat}

/-- The two pipes, and the two semaphores, are different ones. -/
theorem Wired.other {m : Memory} (wired : Wired image netif m) {direction other : Direction}
    (apart : other ≠ direction) :
    ownPipe image m other ≠ ownPipe image m direction ∧
      ownSema image m other ≠ ownSema image m direction := by
  cases direction <;> cases other
  · exact absurd rfl apart
  · exact ⟨wired.pipes.symm, wired.semas.symm⟩
  · exact ⟨wired.pipes, wired.semas⟩
  · exact absurd rfl apart

/-- A lane whose pipe has no transfer is empty: nobody waits there. -/
theorem Lane.idle {state : State τ} {direction : Direction} (lane : Lane image state direction)
    (free : state.pipe (ownPipe image state.memory direction) = []) :
    state.sema (ownSema image state.memory direction) = ⟨0, []⟩ := by
  cases lane with
  | empty pipe sema => exact sema
  | one transfer pipe => simp [pipe] at free

/-- The read thread runs only when no bulk-in transfer is in flight. -/
theorem Lane.bulkIn_empty {state : State τ} (lane : Lane image state .bulkIn)
    (running : ∀ semh direction id, state.status .read ≠ .blocked semh direction id) :
    state.pipe (ownPipe image state.memory .bulkIn) = [] := by
  cases lane with
  | empty pipe => exact pipe
  | one transfer pipe sema own blocked reader =>
    rw [reader rfl] at blocked
    exact absurd blocked (running _ _ _)

/-- A lane depends on its pipe, its semaphore, its thread and `outbuffer` only. -/
theorem Lane.congr {state next : State τ} {direction : Direction} (lane : Lane image state direction)
    (memory : next.memory = state.memory)
    (pipe : next.pipe (ownPipe image state.memory direction) =
      state.pipe (ownPipe image state.memory direction))
    (sema : next.sema (ownSema image state.memory direction) =
      state.sema (ownSema image state.memory direction))
    (blocked : ∀ thread id,
      state.status thread = .blocked (ownSema image state.memory direction) direction id →
      next.status thread = .blocked (ownSema image state.memory direction) direction id)
    (outbuffer : direction = .bulkOut → state.pipe (ownPipe image state.memory direction) ≠ [] →
      next.outbuffer = state.outbuffer) : Lane image next direction := by
  cases lane with
  | empty noTransfer idle =>
    refine .empty ?_ ?_
    · rw [memory, pipe, noTransfer]
    · rw [memory, sema, idle]
  | one transfer only waits own isBlocked reader holds =>
    refine .one transfer ?_ ?_ ?_ ?_ reader ?_
    · rw [memory, pipe, only]
    · rw [memory, sema, waits]
    · rw [memory, own]
    · rw [memory]
      exact blocked _ _ isBlocked
    · intro p sent
      obtain ⟨out, held⟩ := holds p sent
      refine ⟨out, ?_⟩
      rw [outbuffer out (by simp [only])]
      exact held

/-- With no bulk-out transfer in flight `outbuffer` may change. -/
theorem Kept.fill {state : State τ} (kept : Kept image netif state)
    (free : state.pipe (ownPipe image state.memory .bulkOut) = []) (outbuffer : Nat → UInt8) :
    Kept image netif { state with outbuffer := outbuffer } := by
  refine ⟨kept.wired, fun direction => ?_, kept.nowhere, kept.blocked, kept.woken⟩
  refine (kept.lane direction).congr rfl rfl rfl (fun _ _ blocked => blocked) ?_
  rintro rfl some
  exact absurd free some

/-- What a step returns was reported for the call's own transfer. -/
theorem returns_own {state : State τ} {action : Action τ} {id : Nat} {value : Int}
    (kept : Kept image netif state) (returned : returns state action = some (id, value)) :
    state.reported id = some value := by
  cases action with
  | run thread reply =>
    cases here : state.status thread with
    | woken direction own =>
      simp only [returns, here, Option.some.injEq, Prod.mk.injEq] at returned
      obtain ⟨rfl, rfl⟩ := returned
      exact kept.woken thread direction own here
    | outside | blocked => simp [returns, here] at returned
  | output | start | callback | foreign | store => simp [returns] at returned

/-- Before anything was started both lanes are empty, and no thread waits. -/
theorem started_kept {state : State τ} (started : Started image netif state) :
    Kept image netif state := by
  refine ⟨started.wired, fun direction => .empty (started.pipe _) (started.sema _),
    fun epid _ => started.pipe epid, ?_, ?_⟩
  · intro thread semh direction id here
    rw [started.status] at here
    cases here
  · intro thread direction id here
    rw [started.status] at here
    cases here

/-- A word of a record that is read stays when a byte is written elsewhere. -/
theorem Reads.word {Field : Type} {members : List (Member Field)} {offset : Field → Nat}
    {reads : Field → Bool} {record address : Nat} {m : Memory} {byte : UInt8}
    (spares : ¬ Reads members offset reads record address) (field : Field) (align : Nat)
    (member : ⟨field, 4, align⟩ ∈ members) (isRead : reads field = true) :
    (m.store8 address byte).load32 (record + offset field) = m.load32 (record + offset field) := by
  apply Memory.load32_store8_apart
  by_contra inside
  refine spares ⟨_, member, isRead, ?_, ?_⟩ <;> simp only <;> omega

/-- So the handles stay, and the records are still set up. -/
theorem Spares.own {address : Nat} (spares : Spares image netif address) (m : Memory)
    (byte : UInt8) (direction : Direction) :
    ownPipe image (m.store8 address byte) direction = ownPipe image m direction ∧
      ownSema image (m.store8 address byte) direction = ownSema image m direction := by
  cases direction with
  | bulkIn =>
    exact ⟨Reads.word spares.2 .hin 4 (by decide) rfl, Reads.word spares.2 .hsemin 4 (by decide) rfl⟩
  | bulkOut =>
    exact ⟨Reads.word spares.2 .hout 4 (by decide) rfl, Reads.word spares.2 .hsemout 4 (by decide) rfl⟩

/-- Other code that writes elsewhere changes no lane. -/
theorem store_kept {state : State τ} {address : Nat} {byte : UInt8} (kept : Kept image netif state)
    (spares : Spares image netif address) :
    Kept image netif { state with memory := state.memory.store8 address byte } := by
  have pipe (direction : Direction) := (spares.own state.memory byte direction).1
  have sema (direction : Direction) := (spares.own state.memory byte direction).2
  constructor
  · constructor
    · rw [Reads.word spares.1 .state 4 (by decide) rfl, kept.wired.state]
    · rw [pipe, pipe]
      exact kept.wired.pipes
    · rw [sema, sema]
      exact kept.wired.semas
  · intro direction
    cases kept.lane direction with
    | empty noTransfer idle =>
      refine .empty ?_ ?_
      · rw [pipe, noTransfer]
      · rw [sema, idle]
    | one transfer only waits own isBlocked reader holds =>
      refine .one transfer ?_ ?_ ?_ ?_ reader holds
      · rw [pipe, only]
      · rw [sema, waits]
      · rw [sema, own]
      · rw [sema, isBlocked]
  · intro epid other
    exact kept.nowhere epid fun direction => pipe direction ▸ other direction
  · intro thread semh direction id here
    rw [kept.blocked thread semh direction id here, sema]
  · exact kept.woken

/-- The driver owns the semaphores of its lanes. -/
theorem State.owns_own (state : State τ) (direction : Direction) :
    state.owns image (ownSema image state.memory direction) = true := by
  cases direction <;> simp [State.owns]

/-- A transfer in flight is the one of its lane: no other pipe has any. -/
theorem Kept.found {state : State τ} {epid position : Nat} {transfer : Transfer τ}
    (kept : Kept image netif state) (found : (state.pipe epid)[position]? = some transfer) :
    ∃ direction, epid = ownPipe image state.memory direction := by
  by_contra nowhere
  rw [kept.nowhere epid fun direction same => nowhere ⟨direction, same⟩] at found
  simp at found

end Lanes

section Machine

variable {τ : Type} [DecidableEq τ] {image : Image} {netif : Nat}

/-- Every call of `kue_do_transfer` returned what its own transfer's callback had
reported, and `outbuffer` holds every frame in flight, on whatever pipe. -/
structure OwnTransfers (steps : List (State τ × Action τ)) (state : State τ) : Prop where
  bytes : ∀ entry ∈ steps, ∀ id value, returns entry.1 entry.2 = some (id, value) →
    entry.1.reported id = some value
  outbuffer : ∀ epid, ∀ transfer ∈ state.pipe epid, ∀ p, transfer.frame = some p →
    Holds state.outbuffer p

/-- No callback comes while a thread woken by an earlier one has not run;
`low_level_output` is called only for frames that fit, with no bulk-out transfer in
flight; and an ARP frame is sent only while the pointer `netif->input` happens to be the
handle of the pipe for output, and the word behind the `netif` record that of its semaphore. -/
structure Apart (image : Image) (netif : Nat) (state : State τ) (action : Action τ) : Prop where
  callback : ∀ epid position resultCode bytes, action = .callback epid position resultCode bytes →
    ∀ thread direction id, state.status thread ≠ .woken direction id
  send : ∀ entry p, sends state action = some (entry, p) →
    p.bytes.length + 2 ≤ outbufferSize ∧ state.pipe (ownPipe image state.memory .bulkOut) = []
  linkoutput : ∀ p, sends state action = some (.linkoutput, p) →
    state.memory.load32 (netif + Netif.offset .input) = ownPipe image state.memory .bulkOut ∧
      state.memory.load32 (netif + (Netif.size + 4)) = ownSema image state.memory .bulkOut

/-- A new transfer on an empty lane keeps the transfers apart: the thread that started it
is the only one that waits there.

Proof: the lane is empty, so its semaphore is at zero with nobody waiting, and the thread
that starts the transfer blocks there. The other lane has another pipe and another
semaphore, and its thread is another one. -/
theorem kueDoTransfer_kept {state : State τ} {thread : Thread τ} {direction : Direction}
    {frame : Option PBuf} (len : Nat) (kept : Kept image netif state)
    (free : state.pipe (ownPipe image state.memory direction) = [])
    (running : ∀ semh direction id, state.status thread ≠ .blocked semh direction id)
    (reader : direction = .bulkIn → thread = .read)
    (holds : ∀ p, frame = some p → direction = .bulkOut ∧ Holds state.outbuffer p) :
    Kept image netif (state.kueDoTransfer image thread direction
      (ownPipe image state.memory direction) (ownSema image state.memory direction) len frame) := by
  have idle := (kept.lane direction).idle free
  let semh := ownSema image state.memory direction
  let transfer : Transfer τ := ⟨state.started, thread, semh, len, frame⟩
  let submitted : State τ := { state with
    started := state.started + 1
    pipe := Function.update state.pipe (ownPipe image state.memory direction) [transfer] }
  have next : state.kueDoTransfer image thread direction (ownPipe image state.memory direction) semh
      len frame = (submitted.setSema semh ⟨0, [thread]⟩).setStatus thread
        (.blocked semh direction state.started) := by
    have owned : submitted.owns image semh = true := State.owns_own state direction
    simp only [State.kueDoTransfer, free, List.nil_append, State.waitSema]
    rw [show State.owns image _ semh = true from owned]
    simp [idle, semh, submitted, transfer]
  rw [next]
  constructor
  · exact kept.wired
  · intro other
    by_cases same : other = direction
    · subst same
      refine .one transfer ?_ ?_ rfl (State.setStatus_same ..) reader holds
      · exact Function.update_self ..
      · exact Function.update_self ..
    · obtain ⟨otherPipe, otherSema⟩ := kept.wired.other same
      refine (kept.lane other).congr rfl (Function.update_of_ne otherPipe _ _)
        (Function.update_of_ne otherSema _ _) ?_ fun _ _ => rfl
      intro waiting id blocked
      have apart : waiting ≠ thread := by
        rintro rfl
        exact running _ _ _ blocked
      exact (State.setStatus_other _ apart _).trans blocked
  · intro epid nowhere
    exact (Function.update_of_ne (nowhere direction) _ _).trans (kept.nowhere epid nowhere)
  · intro waiting waitsOn lane id here
    by_cases same : waiting = thread
    · subst same
      rw [State.setStatus_same] at here
      cases here
      rfl
    · rw [State.setStatus_other _ same] at here
      exact kept.blocked waiting waitsOn lane id here
  · intro woken lane id here
    by_cases same : woken = thread
    · subst same
      rw [State.setStatus_same] at here
      cases here
    · rw [State.setStatus_other _ same] at here
      exact kept.woken woken lane id here

/-- A frame that fits is sent on the driver's own pipe: an IP packet always, an ARP frame
where the handles happen to agree. -/
theorem lowLevelOutput_kept {state : State τ} {thread : Thread τ} {entry : Entry} {p : PBuf}
    (kept : Kept image netif state) (fits : p.bytes.length + 2 ≤ outbufferSize)
    (free : state.pipe (ownPipe image state.memory .bulkOut) = [])
    (linkoutput : entry = .linkoutput →
      state.memory.load32 (netif + Netif.offset .input) = ownPipe image state.memory .bulkOut ∧
        state.memory.load32 (netif + (Netif.size + 4)) = ownSema image state.memory .bulkOut)
    (running : ∀ semh direction id, state.status thread ≠ .blocked semh direction id) :
    Kept image netif (state.lowLevelOutput image netif thread entry p) := by
  have handles : state.memory.load32 (entry.record state.memory netif + Ethernetif.offset .hout) =
        ownPipe image state.memory .bulkOut ∧
      state.memory.load32 (entry.record state.memory netif + Ethernetif.offset .hsemout) =
        ownSema image state.memory .bulkOut := by
    cases entry with
    | ethernetifOutput =>
      rw [Entry.record, kept.wired.state]
      exact ⟨rfl, rfl⟩
    | linkoutput => exact linkoutput rfl
  simp only [State.lowLevelOutput, Ps2klsi.lowLevelOutput, handles.1, handles.2]
  refine kueDoTransfer_kept _ (kept.fill free _) free running (by rintro ⟨⟩) ?_
  rintro _ ⟨⟩
  exact ⟨rfl, fillOutbuffer_holds _ fits⟩

/-- The read thread goes on, with a reply or with its next bulk-in transfer. -/
theorem readThread_kept {state : State τ} {reply : Option PBuf} (kept : Kept image netif state)
    (running : ∀ semh direction id, state.status .read ≠ .blocked semh direction id)
    (send : ∀ p, reply = some p →
      (p.bytes.length + 2 ≤ outbufferSize ∧ state.pipe (ownPipe image state.memory .bulkOut) = []) ∧
        state.memory.load32 (netif + Netif.offset .input) = ownPipe image state.memory .bulkOut ∧
        state.memory.load32 (netif + (Netif.size + 4)) = ownSema image state.memory .bulkOut) :
    Kept image netif (state.readThread image netif reply) := by
  cases reply with
  | none =>
    refine kueDoTransfer_kept _ kept ((kept.lane .bulkIn).bulkIn_empty running) running
      (fun _ => rfl) ?_
    rintro _ ⟨⟩
  | some p =>
    obtain ⟨⟨fits, free⟩, handles⟩ := send p rfl
    exact lowLevelOutput_kept kept fits free (fun _ => handles) running

/-- A callback wakes the thread whose transfer is complete.

Proof: the transfer is the only one of its lane, so the thread that wakes is its own. No
other thread is awake that was promised the bytes of an earlier transfer, so nothing is
overwritten. -/
theorem kueTransferCallback_kept {state : State τ} {epid position : Nat}
    {transfer : Transfer τ} (resultCode bytes : Int) (kept : Kept image netif state)
    (found : (state.pipe epid)[position]? = some transfer)
    (asleep : ∀ thread direction id, state.status thread ≠ .woken direction id) :
    Kept image netif (state.kueTransferCallback image epid transfer position resultCode bytes) := by
  obtain ⟨direction, rfl⟩ := kept.found found
  cases kept.lane direction with
  | empty pipe => simp [pipe] at found
  | one own pipe sema ownSemh blocked =>
    rw [pipe, List.getElem?_singleton] at found
    obtain ⟨first, rfl⟩ : position = 0 ∧ own = transfer := by
      split at found
      next first => exact ⟨first, Option.some.inj found⟩
      next => cases found
    subst first
    let semh := ownSema image state.memory direction
    let finished : State τ := { state with
      pipe := Function.update state.pipe (ownPipe image state.memory direction) []
      transferResult := resultCode
      transferBytes := bytes
      reported := Function.update state.reported own.id (some bytes) }
    have next : state.kueTransferCallback image (ownPipe image state.memory direction) own 0 resultCode
        bytes = (finished.setSema semh ⟨0, []⟩).setStatus own.thread (.woken direction own.id) := by
      have owned : finished.owns image semh = true := State.owns_own state direction
      simp only [State.kueTransferCallback, pipe, List.eraseIdx_cons_zero, ownSemh, State.signalSema]
      rw [show State.owns image _ (ownSema image state.memory direction) = true from owned]
      simp [sema, blocked, State.wake, finished, semh]
    rw [next]
    constructor
    · exact kept.wired
    · intro other
      by_cases same : other = direction
      · subst same
        refine .empty ?_ ?_
        · exact Function.update_self ..
        · exact Function.update_self ..
      · obtain ⟨otherPipe, otherSema⟩ := kept.wired.other same
        refine (kept.lane other).congr rfl (Function.update_of_ne otherPipe _ _)
          (Function.update_of_ne otherSema _ _) ?_ fun _ _ => rfl
        intro thread id waits
        have apart : thread ≠ own.thread := by
          rintro rfl
          exact same (Status.blocked.inj (blocked.symm.trans waits)).2.1.symm
        exact (State.setStatus_other _ apart _).trans waits
    · intro epid nowhere
      exact (Function.update_of_ne (nowhere direction) _ _).trans (kept.nowhere epid nowhere)
    · intro thread waitsOn lane id here
      by_cases same : thread = own.thread
      · subst same
        rw [State.setStatus_same] at here
        cases here
      · rw [State.setStatus_other _ same] at here
        exact kept.blocked thread waitsOn lane id here
    · intro thread lane id here
      by_cases same : thread = own.thread
      · subst same
        rw [State.setStatus_same] at here
        cases here
        exact Function.update_self ..
      · rw [State.setStatus_other _ same] at here
        exact absurd here (asleep thread lane id)

/-- A sender that was woken leaves; no lane was waiting for it. -/
theorem leaves_kept {state : State τ} {t : τ} (kept : Kept image netif state)
    (running : ∀ semh direction id, state.status (.sender t) ≠ .blocked semh direction id) :
    Kept image netif (state.setStatus (.sender t) .outside) := by
  constructor
  · exact kept.wired
  · intro direction
    refine (kept.lane direction).congr rfl rfl rfl ?_ fun _ _ => rfl
    intro thread id blocked
    have apart : thread ≠ .sender t := by
      rintro rfl
      exact running _ _ _ blocked
    exact (State.setStatus_other _ apart _).trans blocked
  · exact kept.nowhere
  · intro thread semh direction id here
    by_cases same : thread = .sender t
    · subst same
      rw [State.setStatus_same] at here
      cases here
    · rw [State.setStatus_other _ same] at here
      exact kept.blocked thread semh direction id here
  · intro thread direction id here
    by_cases same : thread = .sender t
    · subst same
      rw [State.setStatus_same] at here
      cases here
    · rw [State.setStatus_other _ same] at here
      exact kept.woken thread direction id here

/-- Every step that stays apart keeps the lanes. A `WaitSema` on a semaphore of other code
does not occur then: whoever waits does so in a lane. -/
theorem moves_kept {state next : State τ} {action : Action τ} (kept : Kept image netif state)
    (apart : Apart image netif state action) (moves : Moves image netif state action next) :
    Kept image netif next := by
  cases moves with
  | @output t entry p here =>
    obtain ⟨fits, free⟩ := apart.send entry p rfl
    refine lowLevelOutput_kept kept fits free ?_ (by simp [here])
    rintro rfl
    exact apart.linkoutput p rfl
  | start here =>
    refine readThread_kept kept (by simp [here]) ?_
    rintro _ ⟨⟩
  | leaves here => exact leaves_kept kept (by simp [here])
  | @reads reply direction id here =>
    refine readThread_kept kept (by simp [here]) ?_
    intro p answered
    have sent : sends state (.run .read reply) = some (.linkoutput, p) := by
      simp only [sends, here, answered, Option.map_some]
    exact ⟨apart.send _ p sent, apart.linkoutput p sent⟩
  | callback found => exact kueTransferCallback_kept _ _ kept found (apart.callback _ _ _ _ rfl)
  | foreign here other =>
    rw [kept.blocked _ _ _ _ here, State.owns_own] at other
    cases other
  | store spares => exact store_kept kept spares

/-- In every run whose steps stay apart, every call of `kue_do_transfer` returns the
bytes of its own transfer and `outbuffer` holds every frame in flight.

Proof: by induction on the run, with the lanes as the invariant. A step returns only for
a thread that was woken, and the invariant says what was reported for it; a frame in
flight is the one transfer of the lane for output, which holds it. -/
theorem own_transfers {steps : List (State τ × Action τ)} {state : State τ}
    (run : Runs.Run (State.step image netif) (Started image netif) steps state)
    (apart : Runs.Meets (Apart image netif) steps) : OwnTransfers steps state := by
  have both : Kept image netif state ∧ ∀ entry ∈ steps, ∀ id value,
      returns entry.1 entry.2 = some (id, value) → entry.1.reported id = some value := by
    refine Runs.invariant (fun steps state => Kept image netif state ∧ ∀ entry ∈ steps, ∀ id value,
      returns entry.1 entry.2 = some (id, value) → entry.1.reported id = some value) ?_ ?_ run apart
    · intro start started
      exact ⟨started_kept started, by simp⟩
    · rintro steps state action next ⟨kept, earlier⟩ isApart taken
      refine ⟨moves_kept kept isApart (step_moves image netif taken), ?_⟩
      intro entry member id value returned
      rcases List.mem_append.mp member with before | last
      · exact earlier entry before id value returned
      · obtain rfl := List.mem_singleton.mp last
        exact returns_own kept returned
  obtain ⟨kept, bytes⟩ := both
  refine ⟨bytes, ?_⟩
  intro epid transfer member p sent
  obtain ⟨position, found⟩ := List.mem_iff_getElem?.mp member
  obtain ⟨direction, rfl⟩ := kept.found found
  cases kept.lane direction with
  | empty pipe => simp [pipe] at member
  | one own pipe _ _ _ _ holds =>
    rw [pipe] at member
    obtain rfl := List.mem_singleton.mp member
    exact (holds p sent).2

end Machine

section TwoSenders

/-- The records once `klsi_init` has set them up, for a device whose pipe for output is 3:
the ARP module would find `0x5000` in its place. -/
def exampleWired : Memory := klsiInit exampleImage exampleEnv exampleMemory 0x4000

/-- Two different pipes and two different semaphores are all that has to be known of the
device and of the kernel. -/
theorem SetUp.wired {image : Image} {env : InitEnv} {before now : Memory} {netif : Nat}
    (setUp : SetUp image env before now netif)
    (pipes : ownPipe image before .bulkIn ≠ ownPipe image before .bulkOut)
    (semas : env.hsemin ≠ env.hsemout) : Wired image netif now := by
  have initialised := setUp.initialised
  constructor
  · exact initialised.state
  · have hin : ownPipe image now .bulkIn = ownPipe image before .bulkIn := by
      apply Memory.load32_congr
      intro index low high
      obtain ⟨i, rfl⟩ := Nat.exists_eq_add_of_le low
      exact initialised.pipes i (by omega)
    rw [hin, show ownPipe image now .bulkOut = ownPipe image before .bulkOut from setUp.houtWord]
    exact pipes
  · intro same
    exact semas (UInt32.toNat_inj.mp (initialised.hsemin.symm.trans (same.trans initialised.hsemout)))

/-- The example has two pipes and two semaphores, each of its own. -/
theorem exampleWired_wired : Wired exampleImage 0x4000 exampleWired :=
  (klsiInit_setUp exampleImage_place exampleEnv exampleMemory).wired (by decide) (by decide)

/-- The driver before the read thread starts, with two senders. -/
def idleDriver : State Bool where
  memory := exampleWired
  transferBytes := 0
  transferResult := 0
  outbuffer := fun _ => 0
  pipe := fun _ => []
  sema := fun _ => ⟨0, []⟩
  status := fun _ => .outside
  started := 0
  reported := fun _ => none

/-- It is a driver that a run can start from. -/
theorem idleDriver_started : Started exampleImage 0x4000 idleDriver :=
  ⟨exampleWired_wired, fun _ => rfl, fun _ => rfl, fun _ => rfl⟩

/-- A frame of so many bytes, all alike, in two pbufs. -/
def plainFrame (half : Nat) (byte : UInt8) : PBuf :=
  ⟨2 * half, [List.replicate half byte, List.replicate half byte]⟩

/-- Whether a thread was woken and has not run. -/
def Status.isWoken : Status → Bool
  | .woken _ _ => true
  | _ => false

/-- No thread of the example was woken and has not run. -/
def allAsleep (state : State Bool) : Bool :=
  !(state.status .read).isWoken && !(state.status (.sender false)).isWoken &&
    !(state.status (.sender true)).isWoken

/-- The conditions of `Apart`, computed for two senders that send IP packets only. -/
def isApart (state : State Bool) : Action Bool → Bool
  | .callback _ _ _ _ => allAsleep state
  | action => (sends state action).all fun sent =>
      sent.2.bytes.length + 2 ≤ outbufferSize &&
        (state.pipe (ownPipe exampleImage state.memory .bulkOut)).isEmpty &&
        sent.1 == .ethernetifOutput

/-- What is computed is enough. -/
theorem apart_of_isApart {state : State Bool} {action : Action Bool}
    (checked : isApart state action = true) : Apart exampleImage 0x4000 state action := by
  cases action with
  | callback epid position resultCode bytes =>
    constructor
    · intro _ _ _ _ _ thread direction id woken
      simp only [isApart, allAsleep, Bool.and_eq_true, Bool.not_eq_true'] at checked
      obtain ⟨⟨read, first⟩, second⟩ := checked
      cases thread with
      | read => simp [woken, Status.isWoken] at read
      | sender t => cases t <;> simp_all [Status.isWoken]
    · rintro entry p ⟨⟩
    · rintro p ⟨⟩
  | output | start | run | foreign | store =>
    constructor
    · rintro epid position resultCode bytes ⟨⟩
    · intro entry p sent
      simp only [isApart, sent, Option.all_some, Bool.and_eq_true, decide_eq_true_eq,
        List.isEmpty_iff] at checked
      exact checked.1
    · intro p sent
      simp [isApart, sent] at checked

/-- The read thread gets a frame that it need not answer, and waits for the next; then one
sender after the other sends a packet. -/
theorem own_transfers_apart : ∃ steps state,
    Runs.Run (State.step exampleImage 0x4000) (Started exampleImage 0x4000) steps state ∧
      steps.filterMap (fun entry : State Bool × Action Bool => returns entry.1 entry.2) =
        [(0, 64), (2, 44), (3, 62)] ∧ OwnTransfers steps state := by
  obtain ⟨steps, state, run, returned, checked⟩ := Runs.run_of_performed
    (State.step exampleImage 0x4000)
    (fun steps _ => steps.filterMap (fun entry : State Bool × Action Bool =>
        returns entry.1 entry.2) = [(0, 64), (2, 44), (3, 62)] ∧
      ∀ entry ∈ steps, isApart entry.1 entry.2 = true)
    idleDriver_started
    [.start, .callback 0 0 0 64, .run .read none,
      .output false .ethernetifOutput (plainFrame 21 2), .callback 3 0 0 44, .run (.sender false) none,
      .output true .ethernetifOutput (plainFrame 30 1), .callback 3 0 0 62, .run (.sender true) none]
    (by decide +kernel)
  refine ⟨steps, state, run, returned, own_transfers run ?_⟩
  exact fun entry member => apart_of_isApart (checked entry member)

/-- While the transfer of a sender is in flight, a second sender sends a packet, and its
transfer is complete first: the first sender returns what was reported for it, and
`outbuffer` no longer holds the first sender's frame. -/
theorem own_transfers_mixed : ∃ (steps : List (State Bool × Action Bool)) (state : State Bool),
    Runs.Run (State.step exampleImage 0x4000) (Started exampleImage 0x4000) steps state ∧
    (∃ entry ∈ steps, returns entry.1 entry.2 = some (0, 44) ∧ entry.1.reported 0 = none) ∧
    (∃ transfer ∈ state.pipe 3, transfer.frame = some (plainFrame 30 1) ∧
      ¬ Holds state.outbuffer (plainFrame 30 1)) ∧
    ¬ OwnTransfers steps state := by
  obtain ⟨steps, state, run, returned, frames, first⟩ := Runs.run_of_performed
    (State.step exampleImage 0x4000)
    (fun steps state => (steps.any fun entry : State Bool × Action Bool =>
        returns entry.1 entry.2 = some (0, 44) ∧ entry.1.reported 0 = none) = true ∧
      (state.pipe 3).map Transfer.frame = [some (plainFrame 30 1)] ∧ state.outbuffer 2 = 2)
    idleDriver_started
    [.output false .ethernetifOutput (plainFrame 30 1),
      .output true .ethernetifOutput (plainFrame 21 2), .callback 3 1 0 44, .run (.sender false) none]
    (by decide +kernel)
  obtain ⟨entry, member, both⟩ := List.any_eq_true.mp returned
  obtain ⟨value, none⟩ := of_decide_eq_true both
  have overwritten : ¬ Holds state.outbuffer (plainFrame 30 1) := by
    intro holds
    have byte := holds.bytes 0 (by decide)
    rw [Nat.add_zero, first] at byte
    exact absurd byte (by decide)
  obtain ⟨transfer, inFlight, frame⟩ := List.mem_map.mp (frames ▸ List.mem_singleton_self _)
  refine ⟨steps, state, run, ⟨entry, member, value, none⟩, ⟨transfer, inFlight, frame, overwritten⟩, ?_⟩
  intro own
  exact overwritten (own.outbuffer 3 transfer inFlight _ frame)

end TwoSenders
end Ps2Eth.Ps2klsi
