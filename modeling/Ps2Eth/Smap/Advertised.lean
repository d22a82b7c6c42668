import Ps2Eth.Smap.Pause

/-!
# The abilities that the smap driver advertises

`SmapConfiguration` of `smap/smap.c` is the argument of the module. `InitPHY` clears in
it the abilities that BMSR does not report, and it stays so for the next call of
`InitPHY`. A read of BMSR that times out counts as zero and clears them all.
-/

namespace Ps2Eth.Smap.InitPHY

/-- What happens while the driver is loaded: an access of the call of `InitPHY` that is
under way, or the next call, which finds the data of the driver at some values. -/
inductive Turn where
  | access (event : Event)
  | again (linkStatus : Bool) (linkMode : BitVec 8) (mode1 : BitVec 32)
deriving DecidableEq

/-- A turn. `SmapConfiguration` is kept from one call to the next. -/
def takeTurn (options : Options) (call : Call) : Turn → Option Call
  | .access event => call.step options event
  | .again linkStatus linkMode mode1 =>
    match call.pc with
    | .returned _ => some ⟨.reset, linkStatus, linkMode, call.smapConfiguration, mode1⟩
    | _ => none

/-- The options of auto-negotiation without pin-strap. -/
def autoNegotiation (enableVerboseOutput : Bool) : Options := ⟨enableVerboseOutput, true, false⟩

/-- The accesses of all calls. -/
def accesses (steps : List (Call × Turn)) : List Event :=
  Runs.observed (fun _ turn => match turn with
    | .access event => [event]
    | .again .. => []) steps

/-- What the last read of BMSR answered, if it completed. -/
def lastBmsr (events : List Event) : Option (BitVec 16) :=
  events.foldl (fun last event => match event with
    | .read reg answer => if reg = dsPhyterBmsr then answer else last
    | _ => last) none

/-- The ability bits of ANAR. -/
def abilityBits : BitVec 32 := 0x1e0

/-- The abilities that a value of BMSR reports, as bits of ANAR. -/
def reported (bmsr : BitVec 16) : BitVec 32 :=
  (if hasBits bmsr 0x4000 then 0x100 else 0) ||| (if hasBits bmsr 0x2000 then 0x080 else 0) |||
    (if hasBits bmsr 0x1000 then 0x040 else 0) ||| (if hasBits bmsr 0x0800 then 0x020 else 0)

/-- Every write to ANAR has the configured abilities that the PHY reported in the read
of BMSR before it, and that read completed. -/
def Advertised (smapConfiguration : BitVec 32) (steps : List (Call × Turn)) : Prop :=
  ∀ early call data, early ++ [(call, .access (.write dsPhyterAnar data))] <+: steps →
    ∃ bmsr, lastBmsr (accesses early) = some bmsr ∧
      data.setWidth 32 &&& abilityBits = smapConfiguration &&& reported bmsr

/-- The reads of BMSR for the abilities, one for each call that came to it. -/
def abilityReads (steps : List (Call × Turn)) : List (Option (BitVec 16)) :=
  Runs.observed (fun call turn => match turn with
    | .access (.read _ answer) => if call.pc = .autoBmsr then [answer] else []
    | _ => []) steps

/-- Before every write to ANAR the ability read of the call completed, and none before
it, with zero for one that timed out, lacked a configured ability that it reports. -/
def Undiminished (smapConfiguration : BitVec 32) (steps : List (Call × Turn)) : Prop :=
  ∀ early call data, early ++ [(call, .access (.write dsPhyterAnar data))] <+: steps →
    ∃ earlier bmsr, abilityReads early = earlier ++ [some bmsr] ∧ ∀ answer ∈ earlier,
      smapConfiguration &&& reported bmsr &&& reported (answer.getD 0) =
        smapConfiguration &&& reported bmsr

/-- What the reads leave of the configured abilities. -/
def remaining (smapConfiguration : BitVec 32) (reads : List (Option (BitVec 16))) : BitVec 32 :=
  reads.foldl (fun left answer => left &&& reported (answer.getD 0))
    (smapConfiguration &&& abilityBits)

/-- A further read takes away what it does not report. -/
theorem remaining_snoc (smapConfiguration : BitVec 32) (reads : List (Option (BitVec 16)))
    (answer : Option (BitVec 16)) :
    remaining smapConfiguration (reads ++ [answer]) =
      remaining smapConfiguration reads &&& reported (answer.getD 0) := by
  rw [remaining, List.foldl_append, List.foldl_cons, List.foldl_nil, remaining]

/-- An ability bit remains if it is configured and every read reports it. -/
theorem remaining_bit (smapConfiguration : BitVec 32) (reads : List (Option (BitVec 16)))
    (bit : Nat) :
    (remaining smapConfiguration reads).getLsbD bit =
      ((smapConfiguration &&& abilityBits).getLsbD bit &&
        reads.all fun answer => (reported (answer.getD 0)).getLsbD bit) := by
  induction reads using List.reverseRecOn with
  | nil => rw [List.all_nil, Bool.and_true, remaining, List.foldl_nil]
  | append_singleton reads answer inductionHypothesis =>
    rw [remaining_snoc, BitVec.getLsbD_and, inductionHypothesis, List.all_append, List.all_cons,
      List.all_nil, Bool.and_true, Bool.and_assoc]

/-- What is reported are abilities and no other bits. -/
theorem reported_inside (bmsr : BitVec 16) : abilityBits &&& reported bmsr = reported bmsr := by
  unfold reported
  cases hasBits bmsr 0x4000 <;> cases hasBits bmsr 0x2000 <;> cases hasBits bmsr 0x1000 <;>
    cases hasBits bmsr 0x0800 <;> decide

/-- The restriction leaves the reported abilities. -/
theorem restrict_abilities (smapConfiguration : BitVec 32) (bmsr : BitVec 16) :
    restrict smapConfiguration bmsr &&& abilityBits =
      smapConfiguration &&& abilityBits &&& reported bmsr := by
  unfold restrict reported
  cases hasBits bmsr 0x4000 <;> cases hasBits bmsr 0x2000 <;> cases hasBits bmsr 0x1000 <;>
    cases hasBits bmsr 0x0800 <;>
    simp only [if_true, if_false, Bool.false_eq_true, BitVec.and_assoc, abilityBits] <;> rfl

/-- The last read leaves what it reports if and only if none before it lacks that.

Proof: bit by bit. A bit of the configuration that the last read reports is left exactly
when every earlier read reported it too. -/
theorem remaining_eq_iff (smapConfiguration : BitVec 32) (earlier : List (Option (BitVec 16)))
    (bmsr : BitVec 16) :
    remaining smapConfiguration (earlier ++ [some bmsr]) = smapConfiguration &&& reported bmsr ↔
      ∀ answer ∈ earlier, smapConfiguration &&& reported bmsr &&& reported (answer.getD 0) =
        smapConfiguration &&& reported bmsr := by
  have whole : ∀ bit, (remaining smapConfiguration (earlier ++ [some bmsr])).getLsbD bit =
      ((smapConfiguration &&& reported bmsr).getLsbD bit &&
        earlier.all fun answer => (reported (answer.getD 0)).getLsbD bit) := by
    intro bit
    have inside := congrArg (fun value => value.getLsbD bit) (reported_inside bmsr)
    simp only [BitVec.getLsbD_and] at inside
    rw [remaining_snoc, BitVec.getLsbD_and, remaining_bit, BitVec.getLsbD_and, BitVec.getLsbD_and,
      Option.getD_some, ← inside]
    ac_rfl
  constructor
  · intro same answer member
    apply BitVec.eq_of_getLsbD_eq
    intro bit _
    rw [BitVec.getLsbD_and]
    have here := whole bit
    rw [same] at here
    cases set : (smapConfiguration &&& reported bmsr).getLsbD bit with
    | false => rw [Bool.false_and]
    | true =>
      rw [set, Bool.true_and] at here
      rw [Bool.true_and]
      exact List.all_eq_true.mp here.symm answer member
  · intro kept
    apply BitVec.eq_of_getLsbD_eq
    intro bit _
    rw [whole]
    cases set : (smapConfiguration &&& reported bmsr).getLsbD bit with
    | false => rw [Bool.false_and]
    | true =>
      rw [Bool.true_and, List.all_eq_true]
      intro answer member
      have same := congrArg (fun value => value.getLsbD bit) (kept answer member)
      simp only [BitVec.getLsbD_and (y := reported (answer.getD 0)), set, Bool.true_and] at same
      exact same

/-- A place where no write to ANAR is due or prepared. -/
def Pc.sparesAnar : Pc → Bool
  | .autoAnar | .autoWrite _ => false
  | .chip _ write rest => (write :: rest).all fun made => made.1 != dsPhyterAnar
  | _ => true

/-- None of the writes that set up the chip goes to ANAR. -/
theorem chipWrites_spare (options : Options) (regDump : List (BitVec 16)) :
    (chipWrites options regDump).all (fun made => made.1 != dsPhyterAnar) = true := by
  unfold chipWrites
  split
  · split <;> decide
  · split <;> decide

/-- So a call that has only these left does not write to ANAR. -/
theorem setUpChip_spares (call : Call) (regDump : List (BitVec 16))
    {writes : List (PhyReg × BitVec 16)}
    (other : writes.all (fun made => made.1 != dsPhyterAnar) = true) :
    (call.setUpChip regDump writes).pc.sparesAnar = true := by
  cases writes with
  | nil => rfl
  | cons write rest => exact other

/-- Only the read of ANAR prepares a write to it, and only the read of the abilities
comes to that. -/
theorem resume_spares (options : Options) {call : Call} (value : BitVec 16) (stop : Bool)
    (spared : call.pc.sparesAnar = true) (other : call.pc ≠ .autoBmsr) :
    (call.resume options value stop).pc.sparesAnar = true := by
  cases here : call.pc with
  | autoBmsr => exact absurd here other
  | autoAnar | autoWrite =>
    rw [here] at spared
    cases spared
  | dump regDump =>
    simp only [Call.resume, here, Call.identify]
    repeat' split
    · rfl
    · rfl
    · exact setUpChip_spares call _ (chipWrites_spare options _)
    · rfl
  | errors regDump counts =>
    simp only [Call.resume, here]
    repeat' split
    · rfl
    · rfl
    · exact setUpChip_spares call _ (chipWrites_spare options _)
  | chip regDump write rest =>
    simp only [Call.resume, here]
    apply setUpChip_spares
    rw [here, Pc.sparesAnar, List.all_cons, Bool.and_eq_true] at spared
    exact spared.2
  | _ =>
    simp only [Call.resume, here, Call.restartAuto, Call.forceFailed]
    repeat' split
    all_goals rfl

/-- Where no write to ANAR is due, none is made. -/
theorem access_spares {call : Call} (spared : call.pc.sparesAnar = true) (data : BitVec 16) :
    call.access ≠ some (.write dsPhyterAnar data) := by
  intro due
  cases here : call.pc with
  | autoWrite =>
    rw [here] at spared
    cases spared
  | chip regDump write rest =>
    rw [here, Pc.sparesAnar, List.all_cons, Bool.and_eq_true, bne_iff_ne] at spared
    simp only [Call.access, here] at due
    exact spared.1 (Access.write.inj (Option.some.inj due)).1
  | _ => simp [Call.access, here, dsPhyterAnar, dsPhyterBmcr] at due

/-- What is written to ANAR has the ability bits of the configuration. -/
theorem anarOf_abilities (smapConfiguration : BitVec 32) (anar : BitVec 16) :
    (anarOf smapConfiguration anar).setWidth 32 &&& abilityBits =
      smapConfiguration &&& abilityBits := by
  have masks : ∀ bit < 32, abilityBits.getLsbD bit = true →
      (0x5e0 : BitVec 32).getLsbD bit = true ∧ (0x1f : BitVec 16).getLsbD bit = false ∧
        bit < 16 := by
    decide
  apply BitVec.eq_of_getLsbD_eq
  intro bit inside
  rw [BitVec.getLsbD_and, BitVec.getLsbD_and]
  cases ability : abilityBits.getLsbD bit with
  | false => rw [Bool.and_false, Bool.and_false]
  | true =>
    obtain ⟨kept, cleared, short⟩ := masks bit inside ability
    simp only [anarOf, BitVec.getLsbD_setWidth, BitVec.getLsbD_or, BitVec.getLsbD_and, kept,
      cleared, inside, short, decide_true, Bool.true_and, Bool.and_true, Bool.and_false, Bool.or_false]

section Observed

variable (steps : List (Call × Turn)) (call : Call)

/-- An answer at the place where BMSR is read for the abilities counts. -/
theorem abilityReads_read {call : Call} (here : call.pc = .autoBmsr) (reg : PhyReg)
    (answer : Option (BitVec 16)) :
    abilityReads (steps ++ [(call, .access (.read reg answer))]) =
      abilityReads steps ++ [answer] := by
  simp only [abilityReads, Runs.observed_snoc, here, if_true]

/-- Answers at other places do not count, even those for BMSR. -/
theorem abilityReads_other {call : Call} (other : call.pc ≠ .autoBmsr) (turn : Turn) :
    abilityReads (steps ++ [(call, turn)]) = abilityReads steps := by
  rw [abilityReads, Runs.observed_snoc]
  split
  · rw [if_neg other, List.append_nil, abilityReads]
  · rw [List.append_nil, abilityReads]

/-- The accesses of a run in order, with the last one behind the others. -/
theorem accesses_access (event : Event) :
    accesses (steps ++ [(call, .access event)]) = accesses steps ++ [event] := by
  simp only [accesses, Runs.observed_snoc]

end Observed

/-- Only reads of BMSR change what it was last found to be. -/
theorem lastBmsr_read (events : List Event) (reg : PhyReg) (answer : Option (BitVec 16)) :
    lastBmsr (events ++ [.read reg answer]) =
      if reg = dsPhyterBmsr then answer else lastBmsr events := by
  simp only [lastBmsr, List.foldl_append, List.foldl_cons, List.foldl_nil]

/-- How far a call has come to its write to ANAR, with the ability reads so far and the
last read of BMSR. -/
inductive AnarCourse (smapConfiguration : BitVec 32) :
    List (Option (BitVec 16)) → Option (BitVec 16) → Pc → Prop where
  | spared {reads : List (Option (BitVec 16))} {last : Option (BitVec 16)} {pc : Pc}
      (spares : pc.sparesAnar = true) : AnarCourse smapConfiguration reads last pc
  | reading (earlier : List (Option (BitVec 16))) (answer : Option (BitVec 16)) :
      AnarCourse smapConfiguration (earlier ++ [answer]) answer .autoAnar
  | writing {earlier : List (Option (BitVec 16))} {answer : Option (BitVec 16)} {data : BitVec 16}
      (bits : data.setWidth 32 &&& abilityBits =
        remaining smapConfiguration (earlier ++ [answer])) :
      AnarCourse smapConfiguration (earlier ++ [answer]) answer (.autoWrite data)

/-- An access moves a call along its course, where it does not read the abilities. -/
theorem course_step {options : Options} {smapConfiguration : BitVec 32}
    {reads : List (Option (BitVec 16))} {events : List Event} {call : Call} {event : Event}
    (course : AnarCourse smapConfiguration reads (lastBmsr events) call.pc)
    (left : call.smapConfiguration &&& abilityBits = remaining smapConfiguration reads)
    (other : call.pc ≠ .autoBmsr) (due : call.access = some event.access) :
    AnarCourse smapConfiguration reads (lastBmsr (events ++ [event]))
      (call.resume options event.value event.stop).pc := by
  generalize read : lastBmsr events = last at course
  generalize here : call.pc = pc at course
  cases course with
  | spared spares =>
    rw [← here] at spares
    exact AnarCourse.spared (resume_spares options _ _ spares other)
  | reading earlier =>
    simp only [Call.access, here] at due
    obtain ⟨value, rfl⟩ := read_due due
    rw [lastBmsr_read, if_neg (by decide), read]
    simp only [Call.resume, here]
    exact AnarCourse.writing ((anarOf_abilities _ _).trans left)
  | writing =>
    simp only [Call.resume, here]
    exact AnarCourse.spared rfl

/-- The configuration has what the ability reads left of it, and the call follows its
course. -/
structure Tracks (smapConfiguration : BitVec 32) (steps : List (Call × Turn)) (call : Call) :
    Prop where
  left : call.smapConfiguration &&& abilityBits = remaining smapConfiguration (abilityReads steps)
  course : AnarCourse smapConfiguration (abilityReads steps) (lastBmsr (accesses steps)) call.pc

/-- An access of a call. -/
theorem tracks_access {options : Options} {smapConfiguration : BitVec 32}
    {steps : List (Call × Turn)} {call next : Call} {event : Event}
    (tracks : Tracks smapConfiguration steps call) (taken : call.step options event = some next) :
    Tracks smapConfiguration (steps ++ [(call, .access event)]) next := by
  obtain ⟨due, rfl⟩ := step_some taken
  by_cases here : call.pc = .autoBmsr
  · simp only [Call.access, here] at due
    obtain ⟨answer, rfl⟩ := read_due due
    constructor
    · rw [abilityReads_read steps here, remaining_snoc, ← tracks.left]
      simp only [Call.resume, here]
      exact restrict_abilities _ _
    · rw [abilityReads_read steps here, accesses_access, lastBmsr_read, if_pos rfl]
      simp only [Call.resume, here]
      exact AnarCourse.reading _ _
  · constructor
    · rw [resume_keeps_configuration options _ _ here, abilityReads_other steps here, tracks.left]
    · rw [abilityReads_other steps here, accesses_access]
      exact course_step tracks.course tracks.left here due

/-- The next call starts over with the registers at what they are, and with the
configuration that the last one has left. -/
theorem tracks_again {options : Options} {smapConfiguration : BitVec 32}
    {steps : List (Call × Turn)} {call next : Call} {linkStatus : Bool} {linkMode : BitVec 8}
    {mode1 : BitVec 32} (tracks : Tracks smapConfiguration steps call)
    (taken : takeTurn options call (.again linkStatus linkMode mode1) = some next) :
    Tracks smapConfiguration (steps ++ [(call, .again linkStatus linkMode mode1)]) next := by
  cases here : call.pc with
  | returned ok =>
    simp only [takeTurn, here, Option.some.injEq] at taken
    subst taken
    constructor
    · rw [abilityReads_other steps (by rw [here]; rintro ⟨⟩)]
      exact tracks.left
    · exact AnarCourse.spared rfl
  | _ => simp [takeTurn, here] at taken

/-- Through all calls the driver keeps track of the ability reads. -/
theorem run_tracks {options : Options} {smapConfiguration : BitVec 32}
    {steps : List (Call × Turn)} {call : Call}
    (run : Runs.Run (takeTurn options) (Called smapConfiguration) steps call) :
    Tracks smapConfiguration steps call := by
  apply Runs.run_invariant (Tracks smapConfiguration) ?_ ?_ run
  · intro first called
    constructor
    · rw [called.smapConfiguration]
      rfl
    · rw [called.pc]
      exact AnarCourse.spared rfl
  · intro steps before turn next tracks taken
    cases turn with
    | access event => exact tracks_access tracks taken
    | again linkStatus linkMode mode1 => exact tracks_again tracks taken

/-- What a write to ANAR has, told by the ability reads before it. -/
theorem write_remaining {options : Options} {smapConfiguration : BitVec 32}
    {early : List (Call × Turn)} {call next : Call} {data : BitVec 16}
    (tracks : Tracks smapConfiguration early call)
    (taken : call.step options (.write dsPhyterAnar data) = some next) :
    ∃ earlier answer, abilityReads early = earlier ++ [answer] ∧
      lastBmsr (accesses early) = answer ∧
      data.setWidth 32 &&& abilityBits = remaining smapConfiguration (earlier ++ [answer]) := by
  obtain ⟨due, -⟩ := step_some taken
  have course := tracks.course
  generalize abilityReads early = reads at course ⊢
  generalize lastBmsr (accesses early) = last at course ⊢
  generalize here : call.pc = pc at course
  cases course with
  | spared spares =>
    rw [← here] at spares
    exact absurd due (access_spares spares data)
  | reading earlier => simp [Call.access, here, Event.access] at due
  | @writing earlier answer written bits =>
    simp only [Call.access, here] at due
    obtain ⟨-, rfl⟩ := Access.write.inj (Option.some.inj due)
    exact ⟨earlier, _, rfl, rfl, bits⟩

/-- Through all calls of `InitPHY` with auto-negotiation and without pin-strap, the
abilities written to ANAR are the configured ones that the PHY reports, exactly when
the ability read before each write completed and none earlier lacked an ability of it.

Proof: every write of ANAR is looked at with the turns before it. What is written is what
is left of the configuration after all the abilities read so far, so that it is the
configured ones exactly when no earlier read took one away and the last read completed. -/
theorem advertised_iff {enableVerboseOutput : Bool} {smapConfiguration : BitVec 32}
    {steps : List (Call × Turn)} {call : Call}
    (run : Runs.Run (takeTurn (autoNegotiation enableVerboseOutput)) (Called smapConfiguration)
      steps call) :
    Advertised smapConfiguration steps ↔ Undiminished smapConfiguration steps := by
  apply forall_congr'
  intro early
  apply forall_congr'
  intro writing
  apply forall_congr'
  intro data
  apply imp_congr_right
  intro shorter
  obtain ⟨before, next, taken⟩ := Runs.run_prefix run shorter
  obtain ⟨earlier, answer, reads, last, bits⟩ := write_remaining (run_tracks before) taken
  rw [reads, last, bits]
  constructor
  · rintro ⟨bmsr, rfl, same⟩
    exact ⟨earlier, bmsr, rfl, (remaining_eq_iff _ _ _).mp same⟩
  · rintro ⟨others, bmsr, same, kept⟩
    obtain ⟨rfl, completed⟩ := List.append_inj' same rfl
    obtain rfl := List.singleton_inj.mp completed
    exact ⟨bmsr, rfl, (remaining_eq_iff _ _ _).mpr kept⟩

/-- A PHY whose ability reads all complete and report the same keeps its abilities. -/
theorem undiminished_of_steady {options : Options} {smapConfiguration : BitVec 32}
    {steps : List (Call × Turn)} {call : Call} (bmsr : BitVec 16)
    (run : Runs.Run (takeTurn options) (Called smapConfiguration) steps call)
    (steady : ∀ answer ∈ abilityReads steps, answer = some bmsr) :
    Undiminished smapConfiguration steps := by
  intro early writing data shorter
  obtain ⟨before, next, taken⟩ := Runs.run_prefix run shorter
  obtain ⟨earlier, answer, reads, -, -⟩ := write_remaining (run_tracks before) taken
  have same : ∀ answer ∈ abilityReads early, answer = some bmsr := by
    intro answer member
    apply steady
    obtain ⟨entry, inside, seen⟩ := List.mem_flatMap.mp member
    exact List.mem_flatMap.mpr ⟨entry, shorter.subset (List.mem_append_left _ inside), seen⟩
  rw [reads] at same
  obtain rfl := same answer (List.mem_append_right _ List.mem_cons_self)
  refine ⟨earlier, bmsr, reads, ?_⟩
  intro other member
  rw [same other (List.mem_append_left _ member), Option.getD_some, BitVec.and_assoc,
    BitVec.and_self]

/-- The accesses of a call up to its write to ANAR, for an answer to the ability read. -/
def callEvents (answer : Option (BitVec 16)) : List Turn :=
  [.access (.write dsPhyterBmcr phyBmcrRst), .access (.read dsPhyterBmcr (some 0)),
    .access (.write dsPhyterBmcr 0), .access (.read dsPhyterBmsr answer),
    .access (.read dsPhyterAnar (some 0x01))]

/-- The accesses from there until the call finds `NetDevStopFlag` set, and the next call. -/
def stoppedEvents (data : BitVec 16) : List Turn :=
  [.access (.write dsPhyterAnar data),
    .access (.write dsPhyterBmcr (phyBmcrAnen ||| phyBmcrRsan)),
    .access (.read dsPhyterBmcr (some phyBmcrAnen)), .access (.read dsPhyterAnar (some data)),
    .access (.stopFlag true), .again false 0 0]

/-- Two calls whose ability reads complete. -/
theorem advertised_steady : ∃ steps call,
    Runs.Run (takeTurn (autoNegotiation false)) (Called 0x5e0) steps call ∧
      call.pc = .autoStart ∧ Advertised 0x5e0 steps := by
  obtain ⟨steps, call, run, here, reads⟩ := Runs.run_of_performed (takeTurn (autoNegotiation false))
    (fun steps call => call.pc = .autoStart ∧ abilityReads steps = [some 0x7800, some 0x7800])
    (⟨rfl, rfl⟩ : Called 0x5e0 ⟨.reset, false, 0, 0x5e0, 0⟩)
    (callEvents (some 0x7800) ++ stoppedEvents 0x5e1 ++ callEvents (some 0x7800) ++
      [.access (.write dsPhyterAnar 0x5e1)]) (by decide)
  refine ⟨steps, call, run, here, (advertised_iff run).mpr ?_⟩
  apply undiminished_of_steady 0x7800 run
  intro answer member
  rw [reads] at member
  simpa using member

/-- The ability read of the first call times out. The one of the second call completes
and reports all abilities, and the call advertises none. -/
theorem advertised_fails : ∃ steps call,
    Runs.Run (takeTurn (autoNegotiation false)) (Called 0x5e0) steps call ∧
      abilityReads steps = [none, some 0x7800] ∧ ¬ Advertised 0x5e0 steps := by
  obtain ⟨early, writing, before, here, reads, last⟩ := Runs.run_of_performed
    (takeTurn (autoNegotiation false))
    (fun steps call => call.pc = .autoWrite 0x401 ∧ abilityReads steps = [none, some 0x7800] ∧
      lastBmsr (accesses steps) = some 0x7800)
    (⟨rfl, rfl⟩ : Called 0x5e0 ⟨.reset, false, 0, 0x5e0, 0⟩)
    (callEvents none ++ stoppedEvents 0x401 ++ callEvents (some 0x7800)) (by decide)
  have other : writing.pc ≠ .autoBmsr := by
    rw [here]
    rintro ⟨⟩
  have taken : takeTurn (autoNegotiation false) writing (.access (.write dsPhyterAnar 0x401)) =
      some (writing.goto .autoStart) := by
    simp [takeTurn, Call.step, Call.access, Call.resume, here, Event.access]
  refine ⟨_, _, before.snoc taken, ?_, ?_⟩
  · rw [abilityReads_other early other, reads]
  · intro advertised
    obtain ⟨bmsr, completed, same⟩ := advertised early writing 0x401 (List.prefix_refl _)
    rw [last] at completed
    obtain rfl := Option.some.inj completed
    exact absurd same (by decide)

end Ps2Eth.Smap.InitPHY
