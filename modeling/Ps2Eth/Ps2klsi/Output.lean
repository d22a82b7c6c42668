import Mathlib.Data.List.GetD
import Mathlib.Logic.Function.Basic

/-!
# The output buffer of the ps2klsi driver

`low_level_output` of `ps2klsi/ps2eth.c` copies a pbuf chain behind two bytes that
it leaves for the length, and then writes these. The buffer is shorter than the
largest Ethernet frame.
-/

namespace Ps2Eth.Ps2klsi

/-- The size of `outbuffer`, two of whose bytes are for the length. -/
def outbufferSize : Nat := 1500

/-- A pbuf chain: `tot_len` of its head and the bytes of each pbuf. -/
structure PBuf where
  totLen : Nat
  segments : List (List UInt8)
deriving DecidableEq

/-- The bytes of the chain. -/
def PBuf.bytes (p : PBuf) : List UInt8 := p.segments.flatten

/-- `bcopy` into `outbuffer`; what goes past its end is not in it. -/
def bcopy (outbuffer : Nat → UInt8) (dest : Nat) (bytes : List UInt8) : Nat → UInt8 :=
  fun index =>
    if dest ≤ index ∧ index < dest + bytes.length ∧ index < outbufferSize then
      bytes.getD (index - dest) 0
    else outbuffer index

/-- The loop of `low_level_output`: every segment is copied behind the one before it. -/
def copyChain (outbuffer : Nat → UInt8) (dest : Nat) : List (List UInt8) → Nat → UInt8
  | [] => outbuffer
  | bytes :: rest => copyChain (bcopy outbuffer dest bytes) (dest + bytes.length) rest

/-- `outbuffer` as `low_level_output` leaves it. -/
def fillOutbuffer (outbuffer : Nat → UInt8) (p : PBuf) : Nat → UInt8 :=
  let copied := copyChain outbuffer 2 p.segments
  Function.update (Function.update copied 0 (UInt8.ofNat p.totLen)) 1 (UInt8.ofNat (p.totLen >>> 8))

/-- `outbuffer` holds the length prefix and the bytes of a frame. -/
structure Holds (outbuffer : Nat → UInt8) (p : PBuf) : Prop where
  low : outbuffer 0 = UInt8.ofNat p.totLen
  high : outbuffer 1 = UInt8.ofNat (p.totLen >>> 8)
  inside : p.bytes.length + 2 ≤ outbufferSize
  bytes : ∀ index < p.bytes.length, outbuffer (2 + index) = p.bytes.getD index 0

/-- The chain is copied to where it belongs, and nothing else is written. -/
theorem copyChain_at (segments : List (List UInt8)) (outbuffer : Nat → UInt8) (dest index : Nat) :
    copyChain outbuffer dest segments index =
      if dest ≤ index ∧ index < dest + segments.flatten.length ∧ index < outbufferSize then
        segments.flatten.getD (index - dest) 0
      else outbuffer index := by
  induction segments generalizing outbuffer dest with
  | nil =>
    have outside : ¬ (dest ≤ index ∧ index < dest + 0 ∧ index < outbufferSize) := by omega
    simp only [copyChain, List.flatten_nil, List.length_nil, if_neg outside]
  | cons bytes rest inductionHypothesis =>
    rw [copyChain, inductionHypothesis]
    simp only [List.flatten_cons, List.length_append]
    by_cases later : dest + bytes.length ≤ index
    · have skipped : ¬ (dest ≤ index ∧ index < dest + bytes.length ∧ index < outbufferSize) := by omega
      have same : (dest + bytes.length ≤ index ∧ index < dest + bytes.length + rest.flatten.length ∧
          index < outbufferSize) ↔ (dest ≤ index ∧
          index < dest + (bytes.length + rest.flatten.length) ∧ index < outbufferSize) := by omega
      have behind : index - dest - bytes.length = index - (dest + bytes.length) := by omega
      have reach : bytes.length ≤ index - dest := by omega
      simp only [bcopy, if_neg skipped, same, List.getD_append_right _ _ _ _ reach, behind]
    · have before : ¬ (dest + bytes.length ≤ index ∧
          index < dest + bytes.length + rest.flatten.length ∧ index < outbufferSize) := by omega
      rw [if_neg before, bcopy]
      by_cases here : dest ≤ index ∧ index < dest + bytes.length ∧ index < outbufferSize
      · have whole : dest ≤ index ∧ index < dest + (bytes.length + rest.flatten.length) ∧
            index < outbufferSize := by omega
        rw [if_pos here, if_pos whole, List.getD_append _ _ _ _ (by omega)]
      · have outside : ¬ (dest ≤ index ∧ index < dest + (bytes.length + rest.flatten.length) ∧
            index < outbufferSize) := by omega
        rw [if_neg here, if_neg outside]

/-- A frame that fits is in `outbuffer` when its transfer starts. -/
theorem fillOutbuffer_holds (outbuffer : Nat → UInt8) {p : PBuf}
    (fits : p.bytes.length + 2 ≤ outbufferSize) : Holds (fillOutbuffer outbuffer p) p := by
  constructor
  · rw [fillOutbuffer, Function.update_of_ne (by decide), Function.update_self]
  · rw [fillOutbuffer, Function.update_self]
  · exact fits
  · intro index inside
    have behind : 2 ≤ 2 + index ∧ 2 + index < 2 + p.segments.flatten.length ∧
        2 + index < outbufferSize := by
      simp only [PBuf.bytes] at fits inside
      omega
    rw [fillOutbuffer, Function.update_of_ne (by omega), Function.update_of_ne (by omega),
      copyChain_at, if_pos behind, Nat.add_sub_cancel_left, PBuf.bytes]

end Ps2Eth.Ps2klsi
