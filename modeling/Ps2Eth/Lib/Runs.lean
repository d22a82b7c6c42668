import Mathlib.Data.List.Basic

/-!
# Runs of a partial step function

A system is a step function: in a state, an action either has one next state or
is not enabled. A run records every state it left with the action taken there,
oldest first, so that a property of a whole run can speak of its steps, of the
states between them and of what was observed along it.

Three rules carry the developments built on it. An invariant that every
admitted step preserves holds after every run of admitted steps. When a step
outside the admitted ones always breaks the wanted property, the property holds
throughout a run exactly when all its steps are admitted. A projection that
takes each step to at most one step of another system takes runs to runs.
-/

namespace Runs

universe u v w

variable {σ : Type u} {α : Type v} {ε : Type w}

/-- Finite runs from a start state satisfying `Start`. The list holds the steps
taken so far, each as the state it was taken in and its action. -/
inductive Run (step : σ → α → Option σ) (Start : σ → Prop) : List (σ × α) → σ → Prop where
  | start {state : σ} (initial : Start state) : Run step Start [] state
  | snoc {steps : List (σ × α)} {state next : σ} {action : α}
      (before : Run step Start steps state) (taken : step state action = some next) :
      Run step Start (steps ++ [(state, action)]) next

/-- Every step of the run was taken in a state and with an action that `Admit`. -/
def Meets (Admit : σ → α → Prop) (steps : List (σ × α)) : Prop :=
  ∀ entry ∈ steps, Admit entry.1 entry.2

/-- What an observer of single steps has seen after the whole run, oldest first. -/
def observed (observe : σ → α → List ε) (steps : List (σ × α)) : List ε :=
  steps.flatMap fun entry => observe entry.1 entry.2

/-- A run without steps has no step that is not admitted. -/
@[simp] theorem meets_nil (Admit : σ → α → Prop) : Meets Admit [] := by simp [Meets]

/-- The steps of a longer run are admitted when the earlier ones and the last one are. -/
@[simp] theorem meets_snoc (Admit : σ → α → Prop) (steps : List (σ × α)) (state : σ) (action : α) :
    Meets Admit (steps ++ [(state, action)]) ↔ Meets Admit steps ∧ Admit state action := by
  simp only [Meets, List.mem_append, List.mem_singleton]
  constructor
  · intro all
    exact ⟨fun entry member => all entry (Or.inl member), all (state, action) (Or.inr rfl)⟩
  · rintro ⟨earlier, last⟩ entry (member | rfl)
    · exact earlier entry member
    · exact last

/-- A prefix of admitted steps has only admitted steps. -/
theorem meets_early {Admit : σ → α → Prop} {early steps : List (σ × α)}
    (shorter : early <+: steps) (admitted : Meets Admit steps) : Meets Admit early :=
  fun entry member => admitted entry (shorter.subset member)

/-- Steps meet two conditions together when they meet each of them. -/
theorem meets_and (Admit Also : σ → α → Prop) (steps : List (σ × α)) :
    Meets (fun state action => Admit state action ∧ Also state action) steps ↔
      Meets Admit steps ∧ Meets Also steps := by
  simp only [Meets, forall_and]

/-- Before the first step nothing is observed. -/
@[simp] theorem observed_nil (observe : σ → α → List ε) : observed observe [] = [] := rfl

/-- The last step is observed after all others. -/
@[simp] theorem observed_snoc (observe : σ → α → List ε) (steps : List (σ × α))
    (state : σ) (action : α) :
    observed observe (steps ++ [(state, action)]) = observed observe steps ++ observe state action := by
  simp [observed]

variable {step : σ → α → Option σ} {Start : σ → Prop}

/-- The invariant rule. `Inv` may speak of the steps taken as well as of the
state; it holds at the start and every admitted step keeps it. -/
theorem invariant {Admit : σ → α → Prop} (Inv : List (σ × α) → σ → Prop)
    (initially : ∀ state, Start state → Inv [] state)
    (kept : ∀ steps state action next, Inv steps state → Admit state action →
      step state action = some next → Inv (steps ++ [(state, action)]) next)
    {steps : List (σ × α)} {state : σ} (run : Run step Start steps state)
    (admitted : Meets Admit steps) : Inv steps state := by
  induction run with
  | start initial => exact initially _ initial
  | snoc before taken inductionHypothesis =>
    obtain ⟨earlier, last⟩ := (meets_snoc _ _ _ _).mp admitted
    exact kept _ _ _ _ (inductionHypothesis earlier) last taken

/-- The invariant rule for an invariant that every step keeps. -/
theorem run_invariant (Inv : List (σ × α) → σ → Prop)
    (initially : ∀ state, Start state → Inv [] state)
    (kept : ∀ steps state action next, Inv steps state → step state action = some next →
      Inv (steps ++ [(state, action)]) next)
    {steps : List (σ × α)} {state : σ} (run : Run step Start steps state) : Inv steps state := by
  induction run with
  | start initial => exact initially _ initial
  | snoc _ taken inductionHypothesis => exact kept _ _ _ _ inductionHypothesis taken

/-- The invariant rule for an invariant of states that every step keeps. -/
theorem state_invariant (Inv : σ → Prop) (initially : ∀ state, Start state → Inv state)
    (kept : ∀ state action next, Inv state → step state action = some next → Inv next)
    {steps : List (σ × α)} {state : σ} (run : Run step Start steps state) : Inv state := by
  induction run with
  | start initial => exact initially _ initial
  | snoc _ taken inductionHypothesis => exact kept _ _ _ inductionHypothesis taken

/-- The state a step was taken in was reached by a run. -/
theorem run_entry {steps : List (σ × α)} {state : σ} (run : Run step Start steps state)
    {entry : σ × α} (member : entry ∈ steps) : ∃ early, Run step Start early entry.1 := by
  induction run with
  | start initial => simp at member
  | snoc before taken inductionHypothesis =>
    rcases List.mem_append.mp member with earlier | last
    · exact inductionHypothesis earlier
    · obtain rfl := List.mem_singleton.mp last
      exact ⟨_, before⟩

/-- A step of the run was taken where the run before it ended. -/
theorem run_prefix {early steps : List (σ × α)} {state final : σ} {action : α}
    (run : Run step Start steps final) (shorter : early ++ [(state, action)] <+: steps) :
    Run step Start early state ∧ ∃ next, step state action = some next := by
  induction run with
  | start initial => simp at shorter
  | snoc before taken inductionHypothesis =>
    rcases List.prefix_concat_iff.mp shorter with whole | shorter
    · obtain ⟨rfl, last⟩ := List.append_inj' whole rfl
      obtain ⟨rfl, rfl⟩ := Prod.mk.inj (List.singleton_inj.mp last)
      exact ⟨before, _, taken⟩
    · exact inductionHypothesis shorter

/-- `Holds` after every prefix of the run, that is in every state it reached. -/
def Throughout (step : σ → α → Option σ) (Start : σ → Prop)
    (Holds : List (σ × α) → σ → Prop) (steps : List (σ × α)) : Prop :=
  ∀ early state, early <+: steps → Run step Start early state → Holds early state

/-- The exactness rule. In runs whose steps are all `Given`, let admitted steps
keep an invariant that implies the wanted property, and let a step outside
`Admit` always break the property. Then it holds throughout a run exactly when
all the run's steps are admitted: the first other step breaks it. -/
theorem throughout_iff (Given : σ → α → Prop) {Admit : σ → α → Prop}
    (Inv : List (σ × α) → σ → Prop) {Holds : List (σ × α) → σ → Prop}
    (initially : ∀ state, Start state → Inv [] state)
    (kept : ∀ steps state action next, Inv steps state → Given state action → Admit state action →
      step state action = some next → Inv (steps ++ [(state, action)]) next)
    (enough : ∀ steps state, Inv steps state → Holds steps state)
    (broken : ∀ steps state action next, Inv steps state → Given state action →
      ¬ Admit state action → step state action = some next → ¬ Holds (steps ++ [(state, action)]) next)
    {steps : List (σ × α)} {state : σ} (run : Run step Start steps state)
    (given : Meets Given steps) :
    Throughout step Start Holds steps ↔ Meets Admit steps := by
  have reached {early : List (σ × α)} {middle : σ} (before : Run step Start early middle)
      (givenEarly : Meets Given early) (admitted : Meets Admit early) : Inv early middle := by
    refine invariant Inv initially ?_ before ((meets_and _ _ _).mpr ⟨givenEarly, admitted⟩)
    rintro earlier state action next holds ⟨isGiven, isAdmitted⟩ taken
    exact kept _ _ _ _ holds isGiven isAdmitted taken
  constructor
  · intro holds
    induction run with
    | start initial => exact meets_nil Admit
    | @snoc steps state next action before taken inductionHypothesis =>
      obtain ⟨givenEarlier, givenLast⟩ := (meets_snoc _ _ _ _).mp given
      have earlier : Meets Admit steps := inductionHypothesis givenEarlier fun early middle shorter =>
        holds early middle (shorter.trans (List.prefix_append _ _))
      refine (meets_snoc _ _ _ _).mpr ⟨earlier, ?_⟩
      by_contra refused
      exact broken _ _ _ _ (reached before givenEarlier earlier) givenLast refused taken
        (holds _ _ (List.prefix_refl _) (Run.snoc before taken))
  · intro admitted early middle shorter before
    exact enough _ _ (reached before (meets_early shorter given) (meets_early shorter admitted))

/-- Perform a list of actions, recording the run; `none` if one is not enabled. -/
def replay (step : σ → α → Option σ) : σ → List α → Option (List (σ × α) × σ)
  | state, [] => some ([], state)
  | state, action :: rest =>
    (step state action).bind fun next =>
      (replay step next rest).map fun tail => ((state, action) :: tail.1, tail.2)

/-- Replayed actions extend a run by the steps they recorded. -/
theorem run_append_replay {steps more : List (σ × α)} {state final : σ} {actions : List α}
    (run : Run step Start steps state) (replayed : replay step state actions = some (more, final)) :
    Run step Start (steps ++ more) final := by
  induction actions generalizing steps state more with
  | nil =>
    have same : ([], state) = (more, final) := Option.some.inj replayed
    obtain ⟨rfl, rfl⟩ := Prod.mk.inj same
    simpa using run
  | cons action rest inductionHypothesis =>
    cases taken : step state action with
    | none => simp [replay, taken] at replayed
    | some next =>
      cases tail : replay step next rest with
      | none => simp [replay, taken, tail] at replayed
      | some result =>
        have same : ((state, action) :: result.1, result.2) = (more, final) := by
          simpa [replay, taken, tail] using replayed
        obtain ⟨rfl, rfl⟩ := Prod.mk.inj same
        have extended := inductionHypothesis (Run.snoc run taken) tail
        simpa using extended

/-- A list of actions that can be performed extends a run, with whatever can be computed
of the steps they add. -/
theorem run_append_performed (Check : List (σ × α) → σ → Prop)
    [∀ steps final, Decidable (Check steps final)] {steps : List (σ × α)} {state : σ}
    (run : Run step Start steps state) (actions : List α)
    (performed : (replay step state actions).any (fun result => Check result.1 result.2)) :
    ∃ more final, Run step Start (steps ++ more) final ∧ Check more final := by
  cases replayed : replay step state actions with
  | none => simp [replayed] at performed
  | some result =>
    refine ⟨result.1, result.2, run_append_replay run replayed, ?_⟩
    simpa [replayed] using performed

/-- A list of actions that can be performed from a start state gives a run, with
whatever can be computed of its result. -/
theorem run_of_performed (step : σ → α → Option σ) (Check : List (σ × α) → σ → Prop)
    [∀ steps final, Decidable (Check steps final)] {state : σ} (initial : Start state) (actions : List α)
    (performed : (replay step state actions).any (fun result => Check result.1 result.2)) :
    ∃ steps final, Run step Start steps final ∧ Check steps final :=
  run_append_performed Check (Run.start initial) actions performed

section Projection

variable {τ : Type u} {β : Type v} {abstractStep : τ → β → Option τ} {AbstractStart : τ → Prop}

/-- The simulation rule. Where every step is, seen through `view`, one step of
the other system or none, every run's last view is reached by a run there. -/
theorem run_view {view : σ → τ} (initially : ∀ state, Start state → AbstractStart (view state))
    (simulated : ∀ state action next, step state action = some next →
      view next = view state ∨ ∃ action', abstractStep (view state) action' = some (view next))
    {steps : List (σ × α)} {state : σ} (run : Run step Start steps state) :
    ∃ seen, Run abstractStep AbstractStart seen (view state) := by
  induction run with
  | start initial => exact ⟨[], Run.start (initially _ initial)⟩
  | snoc before taken inductionHypothesis =>
    obtain ⟨seen, reached⟩ := inductionHypothesis
    rcases simulated _ _ _ taken with same | ⟨action', moved⟩
    · exact ⟨seen, same ▸ reached⟩
    · exact ⟨_, Run.snoc reached moved⟩

end Projection

end Runs
