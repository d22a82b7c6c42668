import Mathlib.Algebra.BigOperators.Group.List.Basic
import Mathlib.Algebra.Ring.Nat

/-!
# Sums in ones' complement

Words of 16 bits are added with the carry out of the high end added at the low end. A
number folded to a word is its residue modulo `0xffff`, but for zero the residue is
`0xffff` where the number is not zero.

The words of a message in network order and the words that a machine with the low byte
first reads have different sums. One sum is full if and only if the other is.
-/

namespace OnesComplement

/-- Addition with the carry added at the low end. -/
def add (a b : Nat) : Nat := if a + b < 2 ^ 16 then a + b else a + b - 0xffff

/-- The ones' complement sum of words of 16 bits, from the first one on. -/
def sum (words : List Nat) : Nat := words.foldl add 0

/-- What a number leaves when it is folded to a word. -/
def residue (n : Nat) : Nat := if n = 0 then 0 else (n - 1) % 0xffff + 1

/-- A residue is a word of 16 bits. -/
theorem residue_le (n : Nat) : residue n ≤ 0xffff := by
  rw [residue]
  split
  · decide
  · omega

/-- A word of 16 bits is its own residue, all ones included. -/
theorem residue_of_lt {n : Nat} (short : n < 2 ^ 16) : residue n = n := by
  rw [residue]
  split
  · omega
  · rw [Nat.mod_eq_of_lt (by omega)]
    omega

/-- The part above a word may be added to the part below. -/
theorem residue_turn (n : Nat) : residue (n % 2 ^ 16 + n / 2 ^ 16) = residue n := by
  by_cases zero : n = 0
  · rw [zero, Nat.zero_mod, Nat.zero_div]
  · have some : n % 2 ^ 16 + n / 2 ^ 16 ≠ 0 := by omega
    rw [residue, residue, if_neg zero, if_neg some]
    omega

/-- A word may be added before or after the folding. -/
theorem add_residue (n : Nat) {word : Nat} (short : word < 2 ^ 16) :
    add (residue n) word = residue (n + word) := by
  have bound := residue_le n
  rw [add]
  by_cases zero : n = 0
  · rw [zero, Nat.zero_add, residue_of_lt short, residue, if_pos rfl, Nat.zero_add, if_pos short]
  · have some : n + word ≠ 0 := by omega
    rw [residue, if_neg zero] at bound ⊢
    rw [residue, if_neg some]
    split <;> omega

/-- The sum of words is their number folded. -/
theorem sum_eq {words : List Nat} (short : ∀ word ∈ words, word < 2 ^ 16) :
    sum words = residue words.sum := by
  have general : ∀ (rest : List Nat) (n : Nat), (∀ word ∈ rest, word < 2 ^ 16) →
      rest.foldl add (residue n) = residue (n + rest.sum) := by
    intro rest
    induction rest with
    | nil =>
      intro n _
      rw [List.foldl_nil, List.sum_nil, Nat.add_zero]
    | cons word rest inductionHypothesis =>
      intro n inside
      have here := inside word List.mem_cons_self
      have later : ∀ word ∈ rest, word < 2 ^ 16 :=
        fun word member => inside word (List.mem_cons_of_mem _ member)
      rw [List.foldl_cons, add_residue n here, inductionHypothesis _ later, List.sum_cons,
        Nat.add_assoc]
  have all := general words 0 short
  rw [Nat.zero_add] at all
  exact all

/-- A loop that adds the part above a word to the part below ends with the residue. -/
theorem residue_of_loop {loop : Nat → Nat} (stop : ∀ n, n < 2 ^ 16 → loop n = n)
    (turn : ∀ n, 2 ^ 16 ≤ n → loop n = loop (n % 2 ^ 16 + n / 2 ^ 16)) (n : Nat) :
    loop n = residue n := by
  induction n using Nat.strong_induction_on with
  | _ n inductionHypothesis =>
    by_cases short : n < 2 ^ 16
    · rw [stop n short, residue_of_lt short]
    · rw [turn n (by omega), inductionHypothesis _ (by omega), residue_turn]

/-- The sum is full, all ones, exactly for a multiple that is not zero. -/
theorem residue_full_iff (n : Nat) : residue n = 0xffff ↔ n ≠ 0 ∧ n % 0xffff = 0 := by
  rw [residue]
  split <;> omega

/-- The complement fills the sum up. -/
theorem residue_complement (n : Nat) : residue (n + (0xffff - residue n)) = 0xffff := by
  rw [residue_full_iff, residue]
  split <;> omega

/-- The words that a message is read as, two bytes at a time. A last byte alone is read
with a zero behind it. -/
def pairs (join : UInt8 → UInt8 → Nat) : List UInt8 → List Nat
  | first :: second :: rest => join first second :: pairs join rest
  | [last] => [join last 0]
  | [] => []

/-- The words in network order, the first byte the high one. -/
def words : List UInt8 → List Nat :=
  pairs fun first second => 2 ^ 8 * first.toNat + second.toNat

/-- The words of a machine with the low byte first. -/
def swapped : List UInt8 → List Nat :=
  pairs fun first second => first.toNat + 2 ^ 8 * second.toNat

/-- The words of a message whose first part has an even length. -/
theorem pairs_append (join : UInt8 → UInt8 → Nat) {front : List UInt8}
    (even : front.length % 2 = 0) (back : List UInt8) :
    pairs join (front ++ back) = pairs join front ++ pairs join back := by
  induction front using pairs.induct with
  | case1 first second rest inductionHypothesis =>
    rw [List.length_cons, List.length_cons] at even
    rw [List.cons_append, List.cons_append, pairs, pairs, inductionHypothesis (by omega),
      List.cons_append]
  | case2 last =>
    rw [List.length_singleton] at even
    omega
  | case3 => rw [List.nil_append, pairs, List.nil_append]

/-- Pairs joined to words of 16 bits make only such words. -/
theorem pairs_lt {join : UInt8 → UInt8 → Nat} (short : ∀ first second, join first second < 2 ^ 16)
    (bytes : List UInt8) : ∀ word ∈ pairs join bytes, word < 2 ^ 16 := by
  induction bytes using pairs.induct with
  | case1 first second rest inductionHypothesis =>
    rw [pairs, List.forall_mem_cons]
    exact ⟨short first second, inductionHypothesis⟩
  | case2 last =>
    rw [pairs, List.forall_mem_singleton]
    exact short last 0
  | case3 =>
    intro word member
    cases member

/-- Bytes taken in pairs make words of 16 bits. -/
theorem words_lt (bytes : List UInt8) : ∀ word ∈ words bytes, word < 2 ^ 16 := by
  apply pairs_lt
  intro first second
  have high := first.toNat_lt
  have low := second.toNat_lt
  omega

/-- The sums of two parts are added, if the first part has an even length. -/
theorem swapped_sum_append {front : List UInt8} (even : front.length % 2 = 0) (back : List UInt8) :
    (swapped (front ++ back)).sum = (swapped front).sum + (swapped back).sum := by
  rw [swapped, pairs_append _ even, List.sum_append]

/-- The sum splits where the front has an even number of bytes, so that no pair goes over
the border. -/
theorem words_sum_append {front : List UInt8} (even : front.length % 2 = 0) (back : List UInt8) :
    (words (front ++ back)).sum = (words front).sum + (words back).sum := by
  rw [words, pairs_append _ even, List.sum_append]

/-- The machine's sum of a message is below what its length gives. -/
theorem swapped_sum_le (bytes : List UInt8) : (swapped bytes).sum ≤ 2 ^ 16 * bytes.length := by
  induction bytes using pairs.induct with
  | case1 first second rest inductionHypothesis =>
    have low := first.toNat_lt
    have high := second.toNat_lt
    rw [swapped] at inductionHypothesis ⊢
    rw [pairs, List.sum_cons, List.length_cons, List.length_cons]
    omega
  | case2 last =>
    have low := last.toNat_lt
    rw [swapped, pairs, List.sum_singleton, List.length_singleton, UInt8.toNat_zero]
    omega
  | case3 => exact Nat.zero_le _

/-- A word with its bytes exchanged is the word times `2 ^ 8`, modulo `0xffff`. -/
theorem swapped_sum (bytes : List UInt8) :
    ∃ extra, 2 ^ 8 * (swapped bytes).sum = (words bytes).sum + 0xffff * extra := by
  induction bytes using pairs.induct with
  | case1 first second rest inductionHypothesis =>
    obtain ⟨extra, equal⟩ := inductionHypothesis
    refine ⟨second.toNat + extra, ?_⟩
    rw [words, swapped] at equal ⊢
    rw [pairs, pairs, List.sum_cons, List.sum_cons]
    omega
  | case2 last =>
    refine ⟨0, ?_⟩
    rw [words, swapped, pairs, pairs, List.sum_singleton, List.sum_singleton, UInt8.toNat_zero]
    omega
  | case3 => exact ⟨0, rfl⟩

/-- The sum is zero in one byte order exactly if it is in the other one: either is zero only
where all bytes are. -/
theorem swapped_sum_eq_zero_iff (bytes : List UInt8) :
    (swapped bytes).sum = 0 ↔ (words bytes).sum = 0 := by
  induction bytes using pairs.induct with
  | case1 first second rest inductionHypothesis =>
    rw [words, swapped] at inductionHypothesis ⊢
    rw [pairs, pairs, List.sum_cons, List.sum_cons]
    omega
  | case2 last =>
    rw [words, swapped, pairs, pairs, List.sum_singleton, List.sum_singleton]
    omega
  | case3 => rfl

/-- The machine's sum is full if and only if the sum in network order is. -/
theorem swapped_full_iff (bytes : List UInt8) :
    residue (swapped bytes).sum = 0xffff ↔ residue (words bytes).sum = 0xffff := by
  obtain ⟨extra, equal⟩ := swapped_sum bytes
  have zero := swapped_sum_eq_zero_iff bytes
  rw [residue_full_iff, residue_full_iff]
  omega

/-- The sum of a message's words is full if and only if the machine's sum leaves that. -/
theorem sum_full_iff (bytes : List UInt8) :
    sum (words bytes) = 0xffff ↔ residue (swapped bytes).sum = 0xffff := by
  rw [sum_eq (words_lt bytes), swapped_full_iff]

end OnesComplement
