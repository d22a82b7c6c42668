import Mathlib.Data.List.GetD
import Mathlib.Data.Nat.Digits.Defs
import Mathlib.Tactic.Ring

/-!
# Strings of a C program, and the numerals in them

A string is its characters up to the terminating zero. A numeral is read from the
left: the accumulator is multiplied by the base and the next digit is added. In a
word of 32 bits this gives the value modulo `2 ^ 32`.
-/

namespace CText

/-- A string in memory, without its terminating zero. -/
structure CString where
  chars : List UInt8
  terminated : 0 ∉ chars

/-- The character at an index, up to the terminating zero. -/
def CString.at (string : CString) (index : Nat) : UInt8 := string.chars.getD index 0

/-- A character below the length is not the terminating zero. -/
theorem CString.at_ne_zero (string : CString) {index : Nat} (inside : index < string.chars.length) :
    string.at index ≠ 0 := by
  intro zero
  rw [CString.at, List.getD_eq_getElem _ _ inside] at zero
  exact string.terminated (zero ▸ List.getElem_mem inside)

/-- `'0'` to `'9'`, the decimal digits. -/
def IsDigit (c : UInt8) : Prop := 0x30 ≤ c ∧ c ≤ 0x39

/-- Whether a character is a digit can be computed. -/
instance (c : UInt8) : Decidable (IsDigit c) := inferInstanceAs (Decidable (_ ∧ _))

/-- What a decimal digit counts. -/
def digitOf (c : UInt8) : Nat := c.toNat - 0x30

/-- What digits count, the first one the highest. -/
def value (base : Nat) (digits : List Nat) : Nat := Nat.ofDigits base digits.reverse

/-- Without digits the value is zero. -/
@[simp] theorem value_nil (base : Nat) : value base [] = 0 := rfl

/-- The first digit counts with the power of the base that the digits behind it make up. -/
theorem value_cons (base digit : Nat) (digits : List Nat) :
    value base (digit :: digits) = digit * base ^ digits.length + value base digits := by
  rw [value, Nat.ofDigits_reverse_cons, Nat.mul_comm, Nat.add_comm, value]

/-- The accumulator of a word, after the digits. -/
def accumulate (base : UInt32) (start : UInt32) (digits : List UInt32) : UInt32 :=
  digits.foldl (fun sum digit => sum * base + digit) start

/-- It holds the value modulo the size of the word. -/
theorem accumulate_toNat (base start : UInt32) (digits : List UInt32) :
    (accumulate base start digits).toNat =
      (start.toNat * base.toNat ^ digits.length + value base.toNat (digits.map UInt32.toNat)) %
        2 ^ 32 := by
  induction digits generalizing start with
  | nil =>
    rw [accumulate, List.foldl_nil, List.length_nil, pow_zero, mul_one, List.map_nil, value_nil,
      add_zero, Nat.mod_eq_of_lt start.toNat_lt]
  | cons digit digits inductionHypothesis =>
    have next := inductionHypothesis (start * base + digit)
    rw [accumulate] at next ⊢
    rw [List.foldl_cons, next, UInt32.toNat_add, UInt32.toNat_mul, List.map_cons, value_cons,
      List.length_map, List.length_cons]
    have sum : (start.toNat * base.toNat % 2 ^ 32 + digit.toNat) % 2 ^ 32 =
        (start.toNat * base.toNat + digit.toNat) % 2 ^ 32 := Nat.mod_add_mod ..
    rw [sum, Nat.add_mod, Nat.mod_mul_mod, ← Nat.add_mod]
    congr 1
    ring

/-- Digits that are characters fit into a word. -/
theorem map_toNat_digits (chars : List UInt8) :
    (chars.map fun c => UInt32.ofNat (digitOf c)).map UInt32.toNat = chars.map digitOf := by
  rw [List.map_map]
  apply List.map_congr_left
  intro c _
  have small := c.toNat_lt
  rw [Function.comp_apply, UInt32.toNat_ofNat_of_lt']
  rw [digitOf, UInt32.size]
  omega

/-- From zero, the value of the characters is left. -/
theorem accumulate_zero (base : UInt32) (chars : List UInt8) :
    accumulate base 0 (chars.map fun c => UInt32.ofNat (digitOf c)) =
      UInt32.ofNat (value base.toNat (chars.map digitOf)) := by
  apply UInt32.toNat_inj.mp
  rw [accumulate_toNat, map_toNat_digits, UInt32.toNat_ofNat', UInt32.toNat_zero, zero_mul, zero_add]

end CText
