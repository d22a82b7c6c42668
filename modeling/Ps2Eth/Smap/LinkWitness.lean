import Ps2Eth.Smap.InitPhy

/-!
# A link that was seen

When `InitPHY` returns 0 and was not stopped, it has set `LinkStatus` for a link
bit that it read, and it has not written BMCR since. Only three places set
`LinkStatus`, each on such a read; from there on BMCR is written only on the way
back to `WaitLink`.
-/

namespace Ps2Eth.Smap.InitPHY

/-- The access is a read of BMSR that showed the link. -/
def Event.ShowsLink (event : Event) : Prop :=
  ∃ value, event = .read dsPhyterBmsr (some value) ∧ hasBits value phyBmsrLink = true

/-- The access writes BMCR, after which a link seen before counts no more. -/
def Event.writesBmcr : Event → Bool
  | .write reg _ => reg = dsPhyterBmcr
  | _ => false

/-- The link was seen after the last write to BMCR. -/
def LinkSeen (events : List Event) : Prop :=
  ∃ before event after, events = before ++ event :: after ∧ event.ShowsLink ∧
    ∀ later ∈ after, later.writesBmcr = false

/-- No read of `NetDevStopFlag` found it set. -/
def Unstopped (events : List Event) : Prop := .stopFlag true ∉ events

/-- The places behind a link that was seen. -/
def Pc.settled : Pc → Bool
  | .dump _ | .errors _ _ | .late | .chip _ _ _ | .finish _ | .returned true => true
  | _ => false

/-- How a call comes to a place behind a link: it was there, and writes no BMCR;
it has just seen the link; or it was stopped. -/
inductive Settles (call next : Call) (event : Event) : Prop where
  | stays (before : call.pc.settled = true) (quiet : event.writesBmcr = false)
      (same : next.linkStatus = call.linkStatus)
  | linked (shows : event.ShowsLink) (goesOn : next = call.linked)
  | stopped (stop : event = .stopFlag true) (goesOn : next = call.goto (.returned true))

/-- A read of BMSR that was due and found the link bit shows the link. -/
theorem read_shows {event : Event} (due : some (Access.read dsPhyterBmsr) = some event.access)
    (link : hasBits event.value phyBmsrLink = true) : event.ShowsLink := by
  obtain ⟨value, rfl⟩ := read_due due
  cases value with
  | none => exact absurd link (by decide)
  | some value => exact ⟨value, rfl, link⟩

/-- A look at `NetDevStopFlag` that was due and found it set is such an event. -/
theorem stop_stops {event : Event} (due : some Access.stopFlag = some event.access)
    (stop : event.stop = true) : event = .stopFlag true := by
  cases event with
  | stopFlag set => exact congrArg Event.stopFlag stop
  | read | write | mode1 => simp [Event.access] at due

/-- A negotiation that starts again is not behind a link. -/
theorem restartAuto_unsettled (options : Options) (call : Call) (retries : Nat) :
    (call.restartAuto options retries).pc.settled = false := by
  unfold Call.restartAuto
  split <;> rfl

/-- A forced speed that did not lead to a link is not behind one. -/
theorem forceFailed_unsettled (call : Call) (fast : Bool) :
    (call.forceFailed fast).pc.settled = false := by
  unfold Call.forceFailed
  split <;> rfl

/-- The writes that set up the chip leave `LinkStatus`. -/
theorem setUpChip_linkStatus (call : Call) (regDump : List (BitVec 16))
    (writes : List (PhyReg × BitVec 16)) :
    (call.setUpChip regDump writes).linkStatus = call.linkStatus := by
  cases writes <;> rfl

/-- So does the look at the chip's identifier. -/
theorem identify_linkStatus (options : Options) (call : Call) (regDump : List (BitVec 16)) :
    (call.identify options regDump).linkStatus = call.linkStatus := by
  unfold Call.identify
  split
  · split
    · rfl
    · exact setUpChip_linkStatus _ _ _
  · rfl

/-- The writes for a DP83846A leave BMCR alone. -/
theorem chipWrites_quiet (options : Options) (regDump : List (BitVec 16)) :
    ∀ write ∈ chipWrites options regDump, write.1 ≠ dsPhyterBmcr := by
  intro write member
  unfold chipWrites at member
  rcases List.mem_append.mp member with loopback | revision
  · by_cases slow : operates10 options regDump = true
    · rw [if_pos slow] at loopback
      obtain rfl := List.mem_singleton.mp loopback
      decide
    · rw [if_neg slow] at loopback
      cases loopback
  · split at revision
    · have all : ∀ due ∈ [(0x13, 1), (dsPhyterPhyctrl, 0x1898), (0x1f, 0), (0x1d, 0x5040), (0x1e, 0x8c),
          ((0x13, 0) : PhyReg × BitVec 16)], due.1 ≠ dsPhyterBmcr := by decide
      exact all write revision
    · cases revision

/-- The writes still to make for a DP83846A leave BMCR alone. -/
def Pc.QuietChip : Pc → Prop
  | .chip _ write rest => ∀ due ∈ write :: rest, due.1 ≠ dsPhyterBmcr
  | _ => True

/-- Writes of other registers than BMCR are still to make as such. -/
theorem setUpChip_quietChip (call : Call) (regDump : List (BitVec 16))
    {writes : List (PhyReg × BitVec 16)} (quiet : ∀ write ∈ writes, write.1 ≠ dsPhyterBmcr) :
    (call.setUpChip regDump writes).pc.QuietChip := by
  cases writes with
  | nil => trivial
  | cons write rest => exact quiet

/-- Every step keeps it that the writes still to make leave BMCR alone, so that they
cannot take a link back. -/
theorem step_quietChip {options : Options} {call next : Call} {event : Event}
    (quiet : call.pc.QuietChip) (taken : call.step options event = some next) :
    next.pc.QuietChip := by
  obtain ⟨-, rfl⟩ := step_some taken
  unfold Call.resume
  cases here : call.pc with
  | chip regDump write rest =>
    rw [here] at quiet
    exact setUpChip_quietChip _ _ fun due member => quiet due (List.mem_cons_of_mem _ member)
  | dump regDump =>
    dsimp only
    split
    · trivial
    · unfold Call.identify
      split
      · split
        · trivial
        · exact setUpChip_quietChip _ _ (chipWrites_quiet _ _)
      · trivial
  | errors regDump counts =>
    dsimp only
    split
    · trivial
    · split
      · trivial
      · exact setUpChip_quietChip _ _ (chipWrites_quiet _ _)
  | returned ok =>
    dsimp only
    rw [here]
    trivial
  | _ =>
    dsimp only [Call.restartAuto, Call.forceFailed]
    repeat' first | split | trivial

/-- Before the link was seen a step leads behind it only by seeing it or by being
stopped.

Proof: by the place before the step. Where the link is tested, the read that is answered
shows it; where the wait is given up, the flag was set; and no other place before the link
leads behind it. -/
theorem early_settles {options : Options} {call : Call} {event : Event}
    (due : call.access = some event.access) (early : call.pc.settled = false)
    (settled : (call.resume options event.value event.stop).pc.settled = true) :
    Settles call (call.resume options event.value event.stop) event := by
  cases here : call.pc with
  | reset | fixed | autoOff | autoBmsr | autoAnar | autoWrite | autoStart | showBmcr | showAnar
    | restartShow | force => simp [Call.resume, here, Call.goto, Pc.settled] at settled
  | resetRead | strap | restart =>
    simp only [Call.resume, here] at settled
    repeat' split at settled
    all_goals simp [Call.goto, Pc.settled] at settled
  | negoRead =>
    simp only [Call.resume, here] at settled
    split at settled
    · simp [Call.goto, Pc.settled] at settled
    · simp [restartAuto_unsettled] at settled
  | waitStop | forceStop =>
    simp only [Call.access, here] at due
    by_cases stop : event.stop = true
    · exact .stopped (stop_stops due stop) (by simp only [Call.resume, here, if_pos stop])
    · simp only [Call.resume, here, if_neg stop] at settled
      simp [Call.goto, Pc.settled] at settled
  | negoStop =>
    simp only [Call.access, here] at due
    by_cases stop : event.stop = true
    · exact .stopped (stop_stops due stop) (by simp only [Call.resume, here, if_pos stop])
    · simp only [Call.resume, here, if_neg stop] at settled
      split at settled <;> simp [Call.goto, Pc.settled] at settled
  | negoLinkStop | forceLinkStop =>
    simp only [Call.access, here] at due
    by_cases stop : event.stop = true
    · exact .stopped (stop_stops due stop) (by simp only [Call.resume, here, if_pos stop])
    · simp only [Call.resume, here, if_neg stop] at settled
      split at settled
      · simp [restartAuto_unsettled, forceFailed_unsettled] at settled
      · simp [Call.goto, Pc.settled] at settled
  | waitRead =>
    simp only [Call.access, here] at due
    by_cases link : hasBits event.value phyBmsrLink = true
    · simp only [Call.resume, here, if_pos link]
      exact .linked (read_shows due link) rfl
    · simp only [Call.resume, here, if_neg link] at settled
      split at settled <;> simp [Call.goto, Pc.settled] at settled
  | negoLink | forceLink =>
    simp only [Call.access, here] at due
    by_cases link : hasBits event.value phyBmsrLink = true
    · simp only [Call.resume, here, if_pos link] at settled ⊢
      split at settled
      next soon =>
        rw [if_pos soon]
        exact .linked (read_shows due link) rfl
      next => simp [restartAuto_unsettled, forceFailed_unsettled] at settled
    · simp only [Call.resume, here, if_neg link] at settled
      simp [Call.goto, Pc.settled] at settled
  | dump | errors | late | chip | finish => simp [here, Pc.settled] at early
  | returned ok => simp [Call.access, here] at due

/-- Behind a link nothing writes BMCR or `LinkStatus` but the way back to
`WaitLink`.

Proof: by the place before the step. The accesses made there are reads and the writes that
set up the chip, and none of these is to BMCR. -/
theorem late_settles {options : Options} {call : Call} {event : Event}
    (quietChip : call.pc.QuietChip) (due : call.access = some event.access)
    (before : call.pc.settled = true)
    (settled : (call.resume options event.value event.stop).pc.settled = true) :
    Settles call (call.resume options event.value event.stop) event := by
  cases here : call.pc with
  | dump regDump =>
    refine .stays before ?_ ?_
    · simp only [Call.access, here] at due
      cases event <;> simp_all [Event.access, Event.writesBmcr]
    · simp only [Call.resume, here]
      split
      · rfl
      · exact identify_linkStatus _ _ _
  | errors regDump counts =>
    refine .stays before ?_ ?_
    · simp only [Call.access, here] at due
      cases event <;> simp_all [Event.access, Event.writesBmcr]
    · simp only [Call.resume, here]
      split
      · rfl
      · split
        · rfl
        · exact setUpChip_linkStatus _ _ _
  | late => simp [Call.resume, here, Call.goto, Pc.settled] at settled
  | chip regDump write rest =>
    refine .stays before ?_ ?_
    · simp only [Call.access, here] at due
      rw [here] at quietChip
      have other := quietChip write List.mem_cons_self
      cases event <;> simp_all [Event.access, Event.writesBmcr]
    · simp only [Call.resume, here]
      exact setUpChip_linkStatus _ _ _
  | finish regDump =>
    refine .stays before ?_ ?_
    · simp only [Call.access, here] at due
      cases event <;> simp_all [Event.access, Event.writesBmcr]
    · simp only [Call.resume, here]
      rfl
  | returned ok => simp [Call.access, here] at due
  | _ => simp [here, Pc.settled] at before

/-- A step that comes to a place behind a link has one of the three reasons. The cases are
the places of the call. -/
theorem step_settles {options : Options} {call next : Call} {event : Event}
    (quietChip : call.pc.QuietChip) (taken : call.step options event = some next)
    (settled : next.pc.settled = true) : Settles call next event := by
  obtain ⟨due, rfl⟩ := step_some taken
  cases before : call.pc.settled with
  | false => exact early_settles due before settled
  | true => exact late_settles quietChip due before settled

/-- More accesses that write no BMCR leave the link seen. -/
theorem LinkSeen.snoc {events : List Event} {event : Event} (seen : LinkSeen events)
    (quiet : event.writesBmcr = false) : LinkSeen (events ++ [event]) := by
  obtain ⟨before, shown, after, rfl, shows, none⟩ := seen
  refine ⟨before, shown, after ++ [event], by simp, shows, ?_⟩
  intro later member
  rcases List.mem_append.mp member with early | last
  · exact none later early
  · rw [List.mem_singleton.mp last]
    exact quiet

/-- A read that showed the link is a link seen, with no write to BMCR behind it. -/
theorem linkSeen_last (events : List Event) {event : Event} (shows : event.ShowsLink) :
    LinkSeen (events ++ [event]) :=
  ⟨events, event, [], rfl, shows, by simp⟩

/-- Behind a link an unstopped call has it witnessed. -/
structure Witnessed (steps : List (Call × Event)) (call : Call) : Prop where
  quietChip : call.pc.QuietChip
  witness : call.pc.settled = true → Unstopped (history steps) →
    call.linkStatus = true ∧ LinkSeen (history steps)

/-- In every state reached behind a link, an unstopped call has seen the link and has not
touched BMCR since. -/
theorem run_witnessed {options : Options} {smapConfiguration : BitVec 32}
    {steps : List (Call × Event)} {call : Call}
    (run : Runs.Run (Call.step options) (Called smapConfiguration) steps call) :
    Witnessed steps call := by
  refine Runs.run_invariant Witnessed ?_ ?_ run
  · intro start called
    constructor
    · rw [called.pc]
      trivial
    · intro settled
      rw [called.pc] at settled
      cases settled
  · rintro steps call event next ⟨quietChip, witness⟩ taken
    refine ⟨step_quietChip quietChip taken, ?_⟩
    intro settled unstopped
    rw [history_snoc] at unstopped ⊢
    have earlier : Unstopped (history steps) := fun member =>
      unstopped (List.mem_append_left _ member)
    cases step_settles quietChip taken settled with
    | stays before quiet same =>
      obtain ⟨up, seen⟩ := witness before earlier
      exact ⟨same.trans up, seen.snoc quiet⟩
    | linked shows goesOn => exact ⟨by rw [goesOn]; rfl, linkSeen_last _ shows⟩
    | stopped stop =>
      subst stop
      exact absurd (List.mem_append_right _ List.mem_cons_self) unstopped

/-- For all options, data and answers of the PHY, a call of `InitPHY` that returns
0 and never found `NetDevStopFlag` set leaves `LinkStatus` set, for a link bit read
in BMSR after the last write to BMCR.

Proof: by induction on the accesses of the call. A place behind the link is only come to
from a read that showed it, and no access made there writes BMCR. -/
theorem initPHY_witnessed {options : Options} {smapConfiguration : BitVec 32}
    {steps : List (Call × Event)} {call : Call}
    (run : Runs.Run (Call.step options) (Called smapConfiguration) steps call)
    (returned : call.pc = .returned true) (unstopped : Unstopped (history steps)) :
    call.linkStatus = true ∧ LinkSeen (history steps) :=
  (run_witnessed run).witness (by rw [returned]; rfl) unstopped

/-- The accesses of a call in fixed mode whose PHY shows the link at once and
answers `anlpar` for its partner. -/
def fixedModeEvents (bmcr anlpar : BitVec 16) : List Event :=
  [.write dsPhyterBmcr phyBmcrRst, .read dsPhyterBmcr (some 0), .write dsPhyterBmcr bmcr,
    .stopFlag false, .read dsPhyterBmsr (some phyBmsrLink), .read dsPhyterBmcr (some bmcr),
    .read dsPhyterBmsr (some phyBmsrLink), .read dsPhyterPhyidr1 none, .read dsPhyterPhyidr2 none,
    .read dsPhyterAnar (some 0x1e1), .read dsPhyterAnlpar (some anlpar), .mode1]

/-- A call in fixed mode whose PHY shows the link at once returns success with the link
seen. -/
theorem initPHY_witnessed_fixed : ∃ steps call,
    Runs.Run (Call.step ⟨false, false, false⟩) (Called 0x5e0) steps call ∧
    call.pc = .returned true ∧ call.linkStatus = true ∧ LinkSeen (history steps) := by
  obtain ⟨steps, call, run, returned, unstopped⟩ := Runs.run_of_performed
    (Call.step ⟨false, false, false⟩)
    (fun steps call => call.pc = .returned true ∧ .stopFlag true ∉ history steps)
    (⟨rfl, rfl⟩ : Called 0x5e0 ⟨.reset, false, 0, 0x5e0, 0⟩)
    (fixedModeEvents (fixedBmcr 0x5e0) 0) (by decide)
  exact ⟨steps, call, run, returned, initPHY_witnessed run returned unstopped⟩

end Ps2Eth.Smap.InitPHY
