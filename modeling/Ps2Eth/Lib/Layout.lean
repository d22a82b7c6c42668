import Ps2Eth.Lib.Memory
import Mathlib.Logic.Equiv.Defs

/-!
# Layouts of values in memory

A layout says how many bytes a value takes, which bytes these are, and how a value is
read from the start of a memory. It carries the proofs that the two agree, so that every
layout built from others can be written and read back without a proof of its own.
-/

namespace CRecords

/-- Values of a fixed size. `bytes value` is a memory that starts with the value. -/
structure Layout (α : Type) where
  size : Nat
  read : Memory → α
  bytes : α → Memory
  read_congr : ∀ m m' : Memory, (∀ k < size, m k = m' k) → read m = read m'
  read_bytes : ∀ value, read (bytes value) = value
  bytes_read : ∀ m : Memory, ∀ k < size, bytes (read m) k = m k

namespace Layout

variable {α β : Type}

/-- The memory from an address on. -/
def skip (m : Memory) (address : Nat) : Memory := fun k => m (address + k)

/-- A value is stored at the start of the memory. -/
def write (layout : Layout α) (value : α) (m : Memory) : Memory :=
  fun k => if k < layout.size then layout.bytes value k else m k

/-- Inside the record are the bytes of the value written. -/
theorem write_inside (layout : Layout α) (value : α) (m : Memory) {k : Nat}
    (inside : k < layout.size) : layout.write value m k = layout.bytes value k := if_pos inside

/-- Behind the record the memory is what it was before. -/
theorem write_apart (layout : Layout α) (value : α) (m : Memory) {k : Nat}
    (apart : layout.size ≤ k) : layout.write value m k = m k := if_neg (Nat.not_lt.mpr apart)

/-- A value that was written is read back. -/
@[simp] theorem read_write (layout : Layout α) (value : α) (m : Memory) :
    layout.read (layout.write value m) = value := by
  rw [layout.read_congr _ (layout.bytes value) fun k inside => layout.write_inside value m inside,
    layout.read_bytes]

/-- An array of bytes, one behind the other. -/
def array (count : Nat) : Layout (Fin count → UInt8) where
  size := count
  read m := fun k => m k
  bytes value := fun k => if inside : k < count then value ⟨k, inside⟩ else 0
  read_congr _ _ same := funext fun k => same k k.isLt
  read_bytes _ := funext fun k => dif_pos k.isLt
  bytes_read _ _ inside := dif_pos inside

/-- A half-word, the low byte first. -/
def u16 : Layout UInt16 where
  size := 2
  read m := UInt16.ofNat ((m 0).toNat + 256 * (m 1).toNat)
  bytes value := fun k => UInt8.ofNat (value.toNat / 256 ^ k)
  read_congr m m' same := by rw [same 0 (by decide), same 1 (by decide)]
  read_bytes value := by
    have short := value.toNat_lt
    apply UInt16.toNat_inj.mp
    rw [UInt16.toNat_ofNat', UInt8.toNat_ofNat', UInt8.toNat_ofNat']
    omega
  bytes_read m k inside := by
    have low := (m 0).toNat_lt
    have high := (m 1).toNat_lt
    apply UInt8.toNat_inj.mp
    rw [UInt8.toNat_ofNat', UInt16.toNat_ofNat']
    obtain rfl | rfl : k = 0 ∨ k = 1 := by omega
    · omega
    · omega

/-- The bytes of a word, the low one first. -/
def wordBytes (value : UInt32) : Memory := fun k => UInt8.ofNat (value.toNat / 256 ^ k)

/-- A word comes back from its four bytes. -/
theorem load32_wordBytes (value : UInt32) :
    UInt32.ofNat (Memory.load32 (wordBytes value) 0) = value := by
  have short := value.toNat_lt
  apply UInt32.toNat_inj.mp
  have byte (k : Nat) : (wordBytes value k).toNat = value.toNat / 256 ^ k % 2 ^ 8 := by
    rw [wordBytes, UInt8.toNat_ofNat']
  rw [UInt32.toNat_ofNat', Memory.load32, byte, byte, byte, byte]
  omega

/-- Four bytes come back from the word that they make up. -/
theorem wordBytes_load32 (m : Memory) {k : Nat} (inside : k < 4) :
    wordBytes (UInt32.ofNat (m.load32 0)) k = m k := by
  have b0 := (m 0).toNat_lt
  have b1 := (m 1).toNat_lt
  have b2 := (m 2).toNat_lt
  have b3 := (m 3).toNat_lt
  apply UInt8.toNat_inj.mp
  rw [wordBytes, UInt8.toNat_ofNat', UInt32.toNat_ofNat', Memory.load32]
  simp only [Nat.zero_add]
  obtain rfl | rfl | rfl | rfl : k = 0 ∨ k = 1 ∨ k = 2 ∨ k = 3 := by omega
  all_goals omega

/-- A word, the low byte first. -/
def u32 : Layout UInt32 where
  size := 4
  read m := UInt32.ofNat (m.load32 0)
  bytes := wordBytes
  read_congr m m' same := by
    rw [Memory.load32_congr]
    intro index _ high
    exact same index (by omega)
  read_bytes := load32_wordBytes
  bytes_read m _ inside := wordBytes_load32 m inside

/-- One value behind another, without a gap. -/
def pair (first : Layout α) (second : Layout β) : Layout (α × β) where
  size := first.size + second.size
  read m := (first.read m, second.read (skip m first.size))
  bytes value := fun k =>
    if k < first.size then first.bytes value.1 k else second.bytes value.2 (k - first.size)
  read_congr m m' same := by
    have left : first.read m = first.read m' := by
      apply first.read_congr
      intro k inside
      exact same k (by omega)
    have right : second.read (skip m first.size) = second.read (skip m' first.size) := by
      apply second.read_congr
      intro k inside
      exact same (first.size + k) (by omega)
    rw [left, right]
  read_bytes value := by
    apply Prod.ext
    · rw [← first.read_bytes value.1]
      apply first.read_congr
      intro k inside
      rw [if_pos inside, first.read_bytes]
    · rw [← second.read_bytes value.2]
      apply second.read_congr
      intro k inside
      rw [skip, if_neg (by omega), Nat.add_sub_cancel_left, second.read_bytes]
  bytes_read m k inside := by
    by_cases left : k < first.size
    · rw [if_pos left, first.bytes_read m k left]
    · rw [if_neg left, second.bytes_read _ (k - first.size) (by omega), skip,
        Nat.add_sub_cancel' (Nat.le_of_not_lt left)]

/-- The same bytes for another type. -/
def congr (layout : Layout α) (same : α ≃ β) : Layout β where
  size := layout.size
  read m := same (layout.read m)
  bytes value := layout.bytes (same.symm value)
  read_congr m m' agree := by rw [layout.read_congr m m' agree]
  read_bytes value := by rw [layout.read_bytes, Equiv.apply_symm_apply]
  bytes_read m k inside := by rw [Equiv.symm_apply_apply, layout.bytes_read m k inside]

end Layout

end CRecords
