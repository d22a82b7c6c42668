import Mathlib.Algebra.Ring.Nat
import Mathlib.Logic.Function.Basic

/-!
# Bytes in memory, and records of a C program

A memory holds a byte at each address. Words have four bytes, the low one first. A
record places its members one after the other, each at the next address that its
alignment permits, and takes space up to a multiple of the largest alignment.
-/

namespace CRecords

/-- A memory of bytes, one at every address. -/
abbrev Memory := Nat → UInt8

namespace Memory

/-- The little-endian word at an address, which need not be aligned. -/
def load32 (m : Memory) (address : Nat) : Nat :=
  (m address).toNat + 2 ^ 8 * (m (address + 1)).toNat + 2 ^ 16 * (m (address + 2)).toNat +
    2 ^ 24 * (m (address + 3)).toNat

/-- One byte is stored, and all others stay. -/
def store8 (m : Memory) (address : Nat) (byte : UInt8) : Memory :=
  Function.update m address byte

/-- A word is stored as its four bytes, the lowest one first. -/
def store32 (m : Memory) (address word : Nat) : Memory :=
  fun index =>
    if address ≤ index ∧ index < address + 4 then UInt8.ofNat (word >>> (8 * (index - address)))
    else m index

/-- The byte stored is the one read back. -/
theorem store8_same (m : Memory) (address : Nat) (byte : UInt8) :
    m.store8 address byte address = byte := Function.update_self ..

/-- At any other address a byte store changes nothing. -/
theorem store8_apart {m : Memory} {address index : Nat} {byte : UInt8} (apart : index ≠ address) :
    m.store8 address byte index = m index := Function.update_of_ne apart ..

/-- Outside of its four bytes a word store changes nothing. -/
theorem store32_apart {m : Memory} {address index word : Nat}
    (apart : index < address ∨ address + 4 ≤ index) : m.store32 address word index = m index :=
  if_neg (by omega)

/-- A word that was stored is there. -/
theorem load32_store32 (m : Memory) (address : Nat) {word : Nat} (short : word < 2 ^ 32) :
    (m.store32 address word).load32 address = word := by
  have byte : ∀ index < 4, (m.store32 address word (address + index)).toNat =
      word / 2 ^ (8 * index) % 2 ^ 8 := by
    intro index inside
    rw [store32, if_pos (by omega), Nat.add_sub_cancel_left, UInt8.toNat_ofNat',
      Nat.shiftRight_eq_div_pow]
  have first := byte 0 (by decide)
  rw [Nat.add_zero] at first
  rw [load32, first, byte 1 (by decide), byte 2 (by decide), byte 3 (by decide)]
  omega

/-- A word is told by its four bytes. -/
theorem load32_congr {m m' : Memory} {address : Nat}
    (same : ∀ index, address ≤ index → index < address + 4 → m index = m' index) :
    m.load32 address = m'.load32 address := by
  rw [load32, load32, same address (by omega) (by omega), same (address + 1) (by omega) (by omega),
    same (address + 2) (by omega) (by omega), same (address + 3) (by omega) (by omega)]

/-- A word that does not overlap the one stored reads as before. -/
theorem load32_store32_apart {m : Memory} {address other word : Nat}
    (apart : other + 4 ≤ address ∨ address + 4 ≤ other) :
    (m.store32 address word).load32 other = m.load32 other := by
  apply load32_congr
  intro index low high
  apply store32_apart
  omega

/-- A word that does not hold the byte stored reads as before. -/
theorem load32_store8_apart {m : Memory} {address other : Nat} {byte : UInt8}
    (apart : other + 4 ≤ address ∨ address < other) :
    (m.store8 address byte).load32 other = m.load32 other := by
  apply load32_congr
  intro index low high
  apply store8_apart
  omega

end Memory

/-- A member of a record. -/
structure Member (Field : Type) where
  field : Field
  size : Nat
  align : Nat
deriving DecidableEq

namespace Member

variable {Field : Type}

/-- The next multiple of `align`. -/
def roundUp (at_ align : Nat) : Nat := (at_ + (align - 1)) / align * align

/-- Where the members are, and where the last one ends. -/
def place (at_ : Nat) : List (Member Field) → List (Field × Nat) × Nat
  | [] => ([], at_)
  | member :: rest =>
    let start := roundUp at_ member.align
    let placed := place (start + member.size) rest
    ((member.field, start) :: placed.1, placed.2)

/-- The offset of a member. -/
def offsetOf [BEq Field] (members : List (Member Field)) (field : Field) : Nat :=
  ((place 0 members).1.lookup field).getD 0

/-- The size of the record. -/
def sizeOf (members : List (Member Field)) : Nat :=
  roundUp (place 0 members).2 ((members.map Member.align).foldl max 1)

end Member

end CRecords
