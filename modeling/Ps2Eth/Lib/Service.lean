import Mathlib.Data.BitVec
import Ps2Eth.Lib.Runs

/-!
# First come, first served

Items arrive at a server and wait. The server takes them in the order in which they
came, one in a step, and each time an answer from outside decides what becomes of the
item: what is put out for it and how it is counted. Between the services anything may
happen that leaves the waiting items as they are.

Then a whole run is told by what arrived and what was answered: the items served are
the first that arrived, as many as there were answers, and what was put out and what
was counted is what each of them came to with its answer, in order.
-/

namespace Service

universe u v w x y z

variable {σ : Type u} {α : Type v} {ι : Type w} {κ : Type x} {ω : Type y} {τ : Type z}

/-- How a system is seen as a server: what arrives, is answered and put out in a step,
what it counts, and which items wait. -/
structure View (σ : Type u) (α : Type v) (ι : Type w) (κ : Type x) (ω : Type y) (τ : Type z) where
  arrives : σ → α → List ι
  answers : σ → α → List κ
  puts : σ → α → List ω
  tally : σ → τ
  Waiting : σ → List ι → Prop

/-- What becomes of an item with its answer. -/
structure Policy (ι : Type w) (κ : Type x) (ω : Type y) (τ : Type z) where
  outcome : ι → κ → List ω
  account : τ → ι → κ → τ

/-- What is put out for items with their answers. -/
def Policy.outcomes (policy : Policy ι κ ω τ) (served : List (ι × κ)) : List ω :=
  served.flatMap fun entry => policy.outcome entry.1 entry.2

/-- What is counted after items with their answers. -/
def Policy.counted (policy : Policy ι κ ω τ) (tally : τ) (served : List (ι × κ)) : τ :=
  served.foldl (fun tally entry => policy.account tally entry.1 entry.2) tally

/-- A step of a server: items arrive behind those that wait, or the first of these is
served. -/
inductive Moves (view : View σ α ι κ ω τ) (policy : Policy ι κ ω τ) (state : σ) (action : α)
    (next : σ) (pending : List ι) : Prop where
  | arrival (waiting : view.Waiting next (pending ++ view.arrives state action))
      (unanswered : view.answers state action = []) (silent : view.puts state action = [])
      (uncounted : view.tally next = view.tally state)
  | service (item : ι) (rest : List ι) (answer : κ) (first : pending = item :: rest)
      (waiting : view.Waiting next rest) (nothing : view.arrives state action = [])
      (answered : view.answers state action = [answer])
      (put : view.puts state action = policy.outcome item answer)
      (counted : view.tally next = policy.account (view.tally state) item answer)

/-- What holds after some steps, with the items served and those that wait. -/
structure Served (view : View σ α ι κ ω τ) (policy : Policy ι κ ω τ) (tally : τ)
    (steps : List (σ × α)) (state : σ) (past pending : List ι) : Prop where
  waiting : view.Waiting state pending
  order : Runs.observed view.arrives steps = past ++ pending
  answered : past.length = (Runs.observed view.answers steps).length
  puts : Runs.observed view.puts steps =
    policy.outcomes (past.zip (Runs.observed view.answers steps))
  tally : view.tally state =
    policy.counted tally (past.zip (Runs.observed view.answers steps))

variable {view : View σ α ι κ ω τ} {policy : Policy ι κ ω τ} {tally : τ}

/-- One step of a server keeps the account of all the items served. -/
theorem Served.moves {steps : List (σ × α)} {state next : σ} {action : α} {past pending : List ι}
    (served : Served view policy tally steps state past pending)
    (moves : Moves view policy state action next pending) :
    ∃ past pending, Served view policy tally (steps ++ [(state, action)]) next past pending := by
  obtain ⟨-, order, answered, puts, counts⟩ := served
  cases moves with
  | arrival waiting unanswered silent uncounted =>
    refine ⟨past, pending ++ view.arrives state action, waiting, ?_, ?_, ?_, ?_⟩
    · rw [Runs.observed_snoc, order, List.append_assoc]
    · rw [Runs.observed_snoc, unanswered, List.append_nil, answered]
    · rw [Runs.observed_snoc, Runs.observed_snoc, silent, unanswered, List.append_nil,
        List.append_nil, puts]
    · rw [Runs.observed_snoc, unanswered, List.append_nil, uncounted, counts]
  | service item rest answer first waiting nothing answeredNow put counted =>
    have both : (past ++ [item]).zip (Runs.observed view.answers steps ++ [answer]) =
        past.zip (Runs.observed view.answers steps) ++ [(item, answer)] :=
      List.zip_append answered
    refine ⟨past ++ [item], rest, waiting, ?_, ?_, ?_, ?_⟩
    · rw [Runs.observed_snoc, nothing, List.append_nil, order, first, List.append_assoc]
      simp
    · rw [Runs.observed_snoc, answeredNow, List.length_append, List.length_append, answered]
      simp
    · rw [Runs.observed_snoc, Runs.observed_snoc, answeredNow, both, puts, put]
      simp [Policy.outcomes]
    · rw [Runs.observed_snoc, answeredNow, both, counted, counts]
      simp [Policy.counted]

variable {step : σ → α → Option σ} {Start : σ → Prop}

/-- The rule of service: where nothing waits at the start and every admitted step is a
move of the server, the run is accounted for by the items that came and the answers
given. -/
theorem run_served {Admit : σ → α → Prop}
    (initially : ∀ state, Start state → view.Waiting state [] ∧ view.tally state = tally)
    (moves : ∀ state action next pending, view.Waiting state pending → Admit state action →
      step state action = some next → Moves view policy state action next pending)
    {steps : List (σ × α)} {state : σ} (run : Runs.Run step Start steps state)
    (admitted : Runs.Meets Admit steps) :
    ∃ past pending, Served view policy tally steps state past pending := by
  refine Runs.invariant
    (fun steps state => ∃ past pending, Served view policy tally steps state past pending)
    ?_ ?_ run admitted
  · intro state start
    obtain ⟨waiting, counts⟩ := initially state start
    exact ⟨[], [], waiting, by simp, by simp, by simp [Policy.outcomes],
      by simpa [Policy.counted] using counts⟩
  · rintro steps state action next ⟨past, pending, served⟩ allowed taken
    exact served.moves (moves state action next pending served.waiting allowed taken)

/-- The first items that arrived, as many as there were answers, with these. -/
def View.served (view : View σ α ι κ ω τ) (steps : List (σ × α)) : List (ι × κ) :=
  (Runs.observed view.arrives steps).zip (Runs.observed view.answers steps)

namespace Served

variable {steps : List (σ × α)} {state : σ} {past pending : List ι}
  (served : Served view policy tally steps state past pending)

include served

/-- The items served are the first that arrived. -/
theorem zip_eq : past.zip (Runs.observed view.answers steps) = view.served steps := by
  have whole : (past ++ pending).zip (Runs.observed view.answers steps ++ []) =
      past.zip (Runs.observed view.answers steps) ++ pending.zip [] :=
    List.zip_append served.answered
  rw [List.append_nil, List.zip_nil_right, List.append_nil] at whole
  rw [View.served, served.order, whole]

/-- There are as many of them as answers. -/
theorem length_eq : (view.served steps).length = (Runs.observed view.answers steps).length := by
  rw [← served.zip_eq, List.length_zip, served.answered, Nat.min_self]

/-- The other items that arrived are waiting. -/
theorem arrives_length :
    (Runs.observed view.arrives steps).length = (view.served steps).length + pending.length := by
  rw [served.length_eq, served.order, List.length_append, served.answered]

/-- What was put out is the outcome of the items served, in their order. -/
theorem puts_eq : Runs.observed view.puts steps = policy.outcomes (view.served steps) := by
  rw [served.puts, served.zip_eq]

/-- The tally is that of the items served. -/
theorem tally_eq : view.tally state = policy.counted tally (view.served steps) := by
  rw [served.tally, served.zip_eq]

end Served

/-- A counter to which every item adds its weight comes to the sum of the weights, up to
its width. -/
theorem counted_sum {width : Nat} (policy : Policy ι κ ω τ) (counter : τ → BitVec width)
    (weight : ι → κ → Nat) (adds : ∀ tally item answer,
      counter (policy.account tally item answer) =
        counter tally + BitVec.ofNat width (weight item answer))
    (tally : τ) (served : List (ι × κ)) :
    counter (policy.counted tally served) =
      counter tally + BitVec.ofNat width (served.map fun entry => weight entry.1 entry.2).sum := by
  induction served using List.reverseRecOn with
  | nil => simp [Policy.counted]
  | append_singleton served entry inductionHypothesis =>
    have last : policy.counted tally (served ++ [entry]) =
        policy.account (policy.counted tally served) entry.1 entry.2 := by
      simp [Policy.counted]
    rw [last, adds, inductionHypothesis, List.map_append, List.sum_append, BitVec.ofNat_add,
      BitVec.add_assoc]
    simp

/-- A counter that counts the items of one kind counts them all, up to its width. -/
theorem counted_eq {width : Nat} (policy : Policy ι κ ω τ) (counter : τ → BitVec width)
    (Kind : ι → κ → Bool) (counts : ∀ tally item answer, counter (policy.account tally item answer) =
      if Kind item answer then counter tally + 1 else counter tally)
    (tally : τ) (served : List (ι × κ)) :
    counter (policy.counted tally served) =
      counter tally + BitVec.ofNat width (served.countP fun entry => Kind entry.1 entry.2) := by
  have adds (tally : τ) (item : ι) (answer : κ) : counter (policy.account tally item answer) =
      counter tally + BitVec.ofNat width (Kind item answer).toNat := by
    rw [counts]
    cases Kind item answer with
    | false => simp
    | true => rfl
  have total : (served.map fun entry => (Kind entry.1 entry.2).toNat).sum =
      served.countP fun entry => Kind entry.1 entry.2 := by
    induction served with
    | nil => rfl
    | cons entry rest inductionHypothesis =>
      rw [List.map_cons, List.sum_cons, inductionHypothesis, List.countP_cons, Nat.add_comm]
      cases Kind entry.1 entry.2 with
      | false => rfl
      | true => rfl
  rw [counted_sum policy counter (fun item answer => (Kind item answer).toNat) adds, total]

end Service
