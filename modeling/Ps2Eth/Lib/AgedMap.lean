import Mathlib.Data.Fintype.Card
import Mathlib.Data.List.Induction

/-!
# Maps that forget

The map of what was heard: each key has the value last heard for it, and the number of
ticks since. A value that was not heard again within `limit` ticks is dropped. What the
map holds is told by the history alone.

A table of limited size holds a part of such a map. A key that has no place in a full
table is crowded out by as many others as the table has places.
-/

namespace AgedMap

universe u v w

variable {K : Type u} {V : Type v}

/-- What happens to a map. -/
inductive Event (K : Type u) (V : Type v) where
  | tick
  | hear (key : K) (value : V)

/-- The value of each key, and the ticks since it was heard. -/
abbrev Held (K : Type u) (V : Type v) := K → Option (V × Nat)

/-- One tick later a value is one tick older, or forgotten. -/
def older (limit : Nat) (value : V × Nat) : Option (V × Nat) :=
  if value.2 + 1 < limit then some (value.1, value.2 + 1) else none

/-- The number of ticks in a history. -/
def ticks (events : List (Event K V)) : Nat :=
  events.countP fun event => event matches .tick

/-- Nothing was heard of the key. -/
def Silent (key : K) (events : List (Event K V)) : Prop := ∀ value, Event.hear key value ∉ events

/-- The history in which `value` was heard last, `age` ticks ago. -/
def HeardLast (events : List (Event K V)) (key : K) (value : V) (age : Nat) : Prop :=
  ∃ early late, events = early ++ .hear key value :: late ∧ Silent key late ∧ ticks late = age

/-- Ticks are counted one part of a run after the other. -/
@[simp] theorem ticks_append (events more : List (Event K V)) :
    ticks (events ++ more) = ticks events + ticks more := List.countP_append

/-- A key is silent over two parts of a run when it is silent in each of them. -/
theorem silent_append {key : K} {events more : List (Event K V)} :
    Silent key (events ++ more) ↔ Silent key events ∧ Silent key more := by
  simp only [Silent, List.mem_append, not_or, forall_and]

/-- An event that does not tell of the key leaves what was heard last of it. -/
theorem HeardLast.snoc {events : List (Event K V)} {key : K} {value : V} {age : Nat}
    (heard : HeardLast events key value age) {event : Event K V} (silent : Silent key [event]) :
    HeardLast (events ++ [event]) key value (age + ticks [event]) := by
  obtain ⟨early, late, rfl, quiet, rfl⟩ := heard
  refine ⟨early, late ++ [event], by simp, silent_append.mpr ⟨quiet, silent⟩, ?_⟩
  rw [ticks_append]

/-- What an event leaves of the last thing heard, or what it brings. -/
theorem heardLast_snoc {events : List (Event K V)} {event : Event K V} {key : K} {value : V}
    {age : Nat} :
    HeardLast (events ++ [event]) key value age ↔
      event = .hear key value ∧ age = 0 ∨
        Silent key [event] ∧ ∃ before, HeardLast events key value before ∧
          age = before + ticks [event] := by
  constructor
  · rintro ⟨early, late, split, quiet, rfl⟩
    rcases List.eq_nil_or_concat late with rfl | ⟨most, last, rfl⟩
    · obtain ⟨-, same⟩ := List.append_inj' split rfl
      exact Or.inl ⟨List.singleton_inj.mp same, rfl⟩
    · rw [List.concat_eq_append] at split quiet ⊢
      rw [← List.cons_append, ← List.append_assoc] at split
      obtain ⟨before, same⟩ := List.append_inj' split rfl
      obtain rfl := List.singleton_inj.mp same
      obtain ⟨quietMost, quietLast⟩ := silent_append.mp quiet
      exact Or.inr ⟨quietLast, ticks most, ⟨early, most, before, quietMost, rfl⟩, ticks_append _ _⟩
  · rintro (⟨rfl, rfl⟩ | ⟨silent, before, heard, rfl⟩)
    · exact ⟨events, [], rfl, fun _ => List.not_mem_nil, rfl⟩
    · exact heard.snoc silent

/-- Something was heard of the key, at most `age` ticks ago. -/
def HeardWithin (events : List (Event K V)) (key : K) (age : Nat) : Prop :=
  ∃ value, ∃ since ≤ age, HeardLast events key value since

/-- What is heard at the end of a run was heard within any number of ticks. -/
theorem heardWithin_last (events : List (Event K V)) (key : K) (value : V) (age : Nat) :
    HeardWithin (events ++ [.hear key value]) key age :=
  ⟨value, 0, Nat.zero_le age, heardLast_snoc.mpr (Or.inl ⟨rfl, rfl⟩)⟩

/-- A longer time back includes a shorter one. -/
theorem HeardWithin.mono {events : List (Event K V)} {key : K} {age longer : Nat}
    (heard : HeardWithin events key age) (atMost : age ≤ longer) : HeardWithin events key longer := by
  obtain ⟨value, since, recent, last⟩ := heard
  exact ⟨value, since, Nat.le_trans recent atMost, last⟩

/-- What was heard lately was heard lately one event later. -/
theorem HeardWithin.snoc {events : List (Event K V)} {key : K} {age : Nat}
    (heard : HeardWithin events key age) (event : Event K V) :
    HeardWithin (events ++ [event]) key (age + ticks [event]) := by
  obtain ⟨value, since, recent, last⟩ := heard
  by_cases silent : Silent key [event]
  · exact ⟨value, since + ticks [event], Nat.add_le_add_right recent _, last.snoc silent⟩
  · obtain ⟨told, here⟩ : ∃ told, Event.hear key told = event := by
      simpa only [Silent, not_forall, not_not, List.mem_singleton] using silent
    rw [← here]
    exact heardWithin_last events key told _

/-- What was heard is in the history. -/
theorem HeardWithin.mem {events : List (Event K V)} {key : K} {age : Nat}
    (heard : HeardWithin events key age) : ∃ value, .hear key value ∈ events := by
  obtain ⟨value, since, -, early, late, rfl, -⟩ := heard
  exact ⟨value, List.mem_append_right _ (List.mem_cons_self ..)⟩

/-- Something was heard of so many other keys, at most `age` ticks ago. -/
def Crowded (events : List (Event K V)) (count : Nat) (key : K) (age : Nat) : Prop :=
  ∃ others : Finset K, others.card = count ∧ key ∉ others ∧
    ∀ other ∈ others, HeardWithin events other age

/-- Keys that crowd another one still do after a further event; if that was a tick, it was
one tick longer ago. -/
theorem Crowded.snoc {events : List (Event K V)} {count : Nat} {key : K} {age : Nat}
    (crowded : Crowded events count key age) (event : Event K V) :
    Crowded (events ++ [event]) count key (age + ticks [event]) := by
  obtain ⟨others, card, apart, heard⟩ := crowded
  exact ⟨others, card, apart, fun other member => (heard other member).snoc event⟩

/-- Keys that all come from a set leave no more than the others of the set to crowd one
of them out. -/
theorem Crowded.lt_card {events : List (Event K V)} {count : Nat} {key : K} {age : Nat}
    (crowded : Crowded events count key age) {keys : Finset K}
    (drawn : ∀ other value, .hear other value ∈ events → other ∈ keys) (member : key ∈ keys) :
    count < keys.card := by
  obtain ⟨others, rfl, apart, heard⟩ := crowded
  apply Finset.card_lt_card
  refine Finset.ssubset_iff_of_subset ?_ |>.mpr ⟨key, member, apart⟩
  intro other among
  obtain ⟨value, told⟩ := (heard other among).mem
  exact drawn other value told

variable [DecidableEq K]

/-- A key without a place in a full table, where something was heard of every key that
has one. -/
theorem crowded_of_full {events : List (Event K V)} {places : Nat} {key : Fin places → K} {missing : K}
    {age : Nat} (distinct : Function.Injective key) (absent : ∀ i, key i ≠ missing)
    (heard : ∀ i, HeardWithin events (key i) age) : Crowded events places missing age := by
  refine ⟨Finset.univ.image key, ?_, ?_, ?_⟩
  · rw [Finset.card_image_of_injective _ distinct, Finset.card_univ, Fintype.card_fin]
  · intro member
    obtain ⟨i, -, same⟩ := Finset.mem_image.mp member
    exact absent i same
  · intro other member
    obtain ⟨i, -, rfl⟩ := Finset.mem_image.mp member
    exact heard i

/-- One event on the map that an ideal listener holds: a tick makes every value older and
drops those at the limit, and what is heard replaces the value of its key at age zero. -/
def apply (limit : Nat) (held : Held K V) : Event K V → Held K V
  | .tick => fun key => (held key).bind (older limit)
  | .hear key value => Function.update held key (some (value, 0))

/-- What is held after a history, oldest event first. -/
def after (limit : Nat) (events : List (Event K V)) : Held K V :=
  events.foldl (apply limit) fun _ => none

/-- Before the first event nothing is held. -/
@[simp] theorem after_nil (limit : Nat) : after limit ([] : List (Event K V)) = fun _ => none := rfl

/-- The second part of a run starts from what the first part left. -/
@[simp] theorem after_append (limit : Nat) (events more : List (Event K V)) :
    after limit (events ++ more) = more.foldl (apply limit) (after limit events) :=
  List.foldl_append

/-- What is held is exactly what was heard last, less than `limit` ticks ago.

Proof: by induction on the events from the last one back. A tick adds one to the age and
may forget; something heard of the key replaces what was there, and of another key changes
nothing. -/
theorem after_eq_some {limit : Nat} (positive : 0 < limit) (events : List (Event K V)) (key : K)
    (value : V) (age : Nat) :
    after limit events key = some (value, age) ↔ HeardLast events key value age ∧ age < limit := by
  induction events using List.reverseRecOn generalizing age with
  | nil =>
    constructor
    · intro held
      cases held
    · rintro ⟨⟨early, late, split, -⟩, -⟩
      simp at split
  | append_singleton events event inductionHypothesis =>
    rw [after_append, heardLast_snoc, List.foldl_cons, List.foldl_nil]
    cases event with
    | tick =>
      have silent : Silent key [Event.tick (K := K) (V := V)] := by simp [Silent]
      have oneTick : ticks [Event.tick (K := K) (V := V)] = 1 := rfl
      have notHeard : (Event.tick : Event K V) ≠ .hear key value := by simp
      simp only [apply, Option.bind_eq_some_iff, silent, true_and, notHeard, false_and, false_or,
        oneTick]
      constructor
      · rintro ⟨⟨before, count⟩, held, grown⟩
        rw [older] at grown
        split at grown
        case isTrue inTime =>
          obtain ⟨rfl, rfl⟩ := Prod.mk.inj (Option.some.inj grown)
          exact ⟨⟨count, ((inductionHypothesis _).mp held).1, rfl⟩, inTime⟩
        case isFalse => cases grown
      · rintro ⟨⟨before, heard, rfl⟩, inTime⟩
        refine ⟨(value, before), (inductionHypothesis _).mpr ⟨heard, by omega⟩, ?_⟩
        exact if_pos inTime
    | hear other told =>
      rw [apply]
      by_cases same : key = other
      · subst same
        rw [Function.update_self]
        have loud : ¬ Silent key [Event.hear key told] :=
          fun silent => silent told (List.mem_singleton_self _)
        simp only [loud, false_and, or_false, Option.some.injEq, Prod.mk.injEq, Event.hear.injEq,
          true_and]
        constructor
        · rintro ⟨rfl, rfl⟩
          exact ⟨⟨rfl, rfl⟩, positive⟩
        · rintro ⟨⟨rfl, rfl⟩, -⟩
          exact ⟨rfl, rfl⟩
      · rw [Function.update_of_ne same, inductionHypothesis]
        have silent : Silent key [Event.hear other told] := by
          simp [Silent, same]
        have notHeard : Event.hear other told ≠ .hear key value := by
          simp [Ne.symm same]
        have noTick : ticks [Event.hear other told] = 0 := rfl
        simp only [silent, notHeard, false_and, false_or, true_and, noTick, Nat.add_zero,
          exists_eq_right']

end AgedMap
