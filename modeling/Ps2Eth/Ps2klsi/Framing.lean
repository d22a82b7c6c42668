import Mathlib.Algebra.Ring.Nat
import Ps2Eth.Ps2klsi.Output

/-!
# Framing in the ps2klsi driver

`low_level_output` puts the length of a frame before its bytes, the low byte first,
and `low_level_input` of `ps2klsi/ps2eth.c` takes the length from there. Sent bytes
that come back give the same frame, whatever the two chains look like. A frame of
more than 1498 bytes does not fit into `outbuffer` any more.
-/

namespace Ps2Eth.Ps2klsi

/-- `tot_len` is the sum of the `len` fields. -/
def PBuf.Whole (p : PBuf) : Prop := p.totLen = p.bytes.length

/-- The bytes that `low_level_output` hands to `kue_do_transfer`. -/
def sentBytes (outbuffer : Nat → UInt8) (p : PBuf) : List UInt8 :=
  (List.range (p.totLen + 2)).map (fillOutbuffer outbuffer p)

/-- `inbuffer` after a transfer of `bytes`. -/
def received (bytes : List UInt8) (inbuffer : Nat → UInt8) : Nat → UInt8 :=
  fun index => bytes.getD index (inbuffer index)

/-- The `length` that `low_level_input` takes from the first two bytes. -/
def lengthPrefix (buf : Nat → UInt8) : Nat := (buf 1).toNat <<< 8 ||| (buf 0).toNat

/-- The loop of `low_level_input` over pbufs with these `len` fields. -/
def readChain (buf : Nat → UInt8) (bufptr : Nat) : List Nat → List (List UInt8)
  | [] => []
  | len :: rest => (List.range' bufptr len).map buf :: readChain buf (bufptr + len) rest

/-- `low_level_input`. `pbufAlloc` gives the `len` fields of the chain that
`pbuf_alloc` finds, and the `len` passed is overwritten before it is used. -/
def lowLevelInput (pbufAlloc : Nat → Option (List Nat)) (buf : Nat → UInt8) (_len : Nat) :
    Option PBuf :=
  (pbufAlloc (lengthPrefix buf)).map fun lens => ⟨lengthPrefix buf, readChain buf 2 lens⟩

/-- The indices of `buf` that the loop of `low_level_input` reads. -/
def chainReads (bufptr : Nat) : List Nat → List Nat
  | [] => []
  | len :: rest => List.range' bufptr len ++ chainReads (bufptr + len) rest

/-- The indices of `buf` that `low_level_input` reads. -/
def lowLevelInputReads (pbufAlloc : Nat → Option (List Nat)) (buf : Nat → UInt8) : List Nat :=
  [0, 1] ++ ((pbufAlloc (lengthPrefix buf)).map (chainReads 2)).getD []

/-- The reads of the buffer are consecutive, wherever the segments of the chain end. -/
theorem chainReads_eq (bufptr : Nat) (lens : List Nat) :
    chainReads bufptr lens = List.range' bufptr lens.sum := by
  induction lens generalizing bufptr with
  | nil => rfl
  | cons len rest inductionHypothesis =>
    rw [chainReads, inductionHypothesis, List.sum_cons, List.range'_append_1]

/-- The chain holds what was read. -/
theorem readChain_flatten (buf : Nat → UInt8) (bufptr : Nat) (lens : List Nat) :
    (readChain buf bufptr lens).flatten = (chainReads bufptr lens).map buf := by
  induction lens generalizing bufptr with
  | nil => rfl
  | cons len rest inductionHypothesis =>
    rw [readChain, List.flatten_cons, inductionHypothesis, chainReads, List.map_append]

/-- Each pbuf is filled, with as many bytes as it has room for. -/
theorem readChain_lengths (buf : Nat → UInt8) (bufptr : Nat) (lens : List Nat) :
    (readChain buf bufptr lens).map List.length = lens := by
  induction lens generalizing bufptr with
  | nil => rfl
  | cons len rest inductionHypothesis =>
    rw [readChain, List.map_cons, inductionHypothesis, List.length_map, List.length_range']

/-- A length of 16 bits is its two bytes. -/
theorem lengthPrefix_eq {buf : Nat → UInt8} {length : Nat} (short : length < 2 ^ 16)
    (low : buf 0 = UInt8.ofNat length) (high : buf 1 = UInt8.ofNat (length >>> 8)) :
    lengthPrefix buf = length := by
  have lowByte : (buf 0).toNat = length % 2 ^ 8 := by
    rw [low, UInt8.toNat_ofNat']
  have highByte : (buf 1).toNat = length >>> 8 := by
    rw [high, UInt8.toNat_ofNat', Nat.shiftRight_eq_div_pow]
    apply Nat.mod_eq_of_lt
    omega
  rw [lengthPrefix, lowByte, highByte, ← Nat.shiftLeft_add_eq_or_of_lt (Nat.mod_lt _ (by decide)),
    Nat.shiftRight_eq_div_pow, Nat.shiftLeft_eq]
  exact Nat.div_add_mod' length (2 ^ 8)

/-- What is received is what was in `outbuffer`. -/
theorem received_sentBytes (outbuffer inbuffer : Nat → UInt8) (p : PBuf) {index : Nat}
    (sent : index < p.totLen + 2) :
    received (sentBytes outbuffer p) inbuffer index = fillOutbuffer outbuffer p index := by
  rw [received, sentBytes, List.getD_eq_getElem _ _ (by simpa using sent), List.getElem_map,
    List.getElem_range]

/-- A frame that is sent and received again is the same frame, in the chain that
`pbuf_alloc` had for it.

Proof: the prefix that is read back is the length that was written, so `pbuf_alloc` is
asked for as much. The bytes are compared one by one: what `outbuffer` holds of the frame
is what the chain is filled with, wherever its segments end. -/
theorem lowLevelInput_sentBytes (outbuffer inbuffer : Nat → UInt8)
    (pbufAlloc : Nat → Option (List Nat)) {p : PBuf} {lens : List Nat} (whole : p.Whole)
    (fits : p.totLen + 2 ≤ outbufferSize) (given : pbufAlloc p.totLen = some lens)
    (sums : lens.sum = p.totLen) :
    ∃ q, lowLevelInput pbufAlloc (received (sentBytes outbuffer p) inbuffer)
        (sentBytes outbuffer p).length = some q ∧
      q.segments.map List.length = lens ∧ q.totLen = p.totLen ∧ q.bytes = p.bytes := by
  have holds : Holds (fillOutbuffer outbuffer p) p := by
    apply fillOutbuffer_holds
    rw [← whole]
    exact fits
  have length : lengthPrefix (received (sentBytes outbuffer p) inbuffer) = p.totLen := by
    apply lengthPrefix_eq
    · rw [outbufferSize] at fits
      omega
    · rw [received_sentBytes _ _ _ (by omega), holds.low]
    · rw [received_sentBytes _ _ _ (by omega), holds.high]
  refine ⟨⟨p.totLen, readChain (received (sentBytes outbuffer p) inbuffer) 2 lens⟩, ?_, ?_, rfl, ?_⟩
  · rw [lowLevelInput, length, given, Option.map_some]
  · exact readChain_lengths _ 2 lens
  · rw [PBuf.bytes, readChain_flatten, chainReads_eq, sums]
    apply List.ext_getElem
    · rw [List.length_map, List.length_range', whole]
    · intro index inChain inFrame
      rw [List.getElem_map, List.getElem_range', Nat.one_mul,
        received_sentBytes _ _ _ (by rw [whole]; omega), holds.bytes index inFrame,
        List.getD_eq_getElem _ _ inFrame]

/-- A frame of three pbufs comes back in two. -/
theorem lowLevelInput_sentBytes_three :
    ∃ q, lowLevelInput (fun _ => some [1, 2])
        (received (sentBytes (fun _ => 7) ⟨3, [[1, 2], [], [3]]⟩) (fun _ => 9))
        (sentBytes (fun _ => 7) ⟨3, [[1, 2], [], [3]]⟩).length = some q ∧
      q.segments.map List.length = [1, 2] ∧ q.totLen = 3 ∧ q.bytes = [1, 2, 3] :=
  lowLevelInput_sentBytes (fun _ => 7) (fun _ => 9) (fun _ => some [1, 2]) rfl (by decide) rfl rfl

/-- The stores of `bcopy` into `outbuffer`. -/
def bcopyStores (dest : Nat) (bytes : List UInt8) : List (Nat × UInt8) :=
  (List.range' dest bytes.length).zip bytes

/-- The stores of the loop of `low_level_output`. -/
def copyStores (dest : Nat) : List (List UInt8) → List (Nat × UInt8)
  | [] => []
  | bytes :: rest => bcopyStores dest bytes ++ copyStores (dest + bytes.length) rest

/-- All stores of `low_level_output`, as offsets from the start of `outbuffer`. -/
def stores (p : PBuf) : List (Nat × UInt8) :=
  copyStores 2 p.segments ++ [(0, UInt8.ofNat p.totLen), (1, UInt8.ofNat (p.totLen >>> 8))]

/-- The offsets that the transfer of `low_level_output` reads. -/
def transferReads (p : PBuf) : List Nat := List.range (p.totLen + 2)

/-- A store, which changes `outbuffer` if it is inside. -/
def store (outbuffer : Nat → UInt8) (stored : Nat × UInt8) : Nat → UInt8 :=
  if stored.1 < outbufferSize then Function.update outbuffer stored.1 stored.2 else outbuffer

/-- `bcopy` of a first byte and others is a store, and the `bcopy` of the others behind
it. -/
theorem bcopy_cons (outbuffer : Nat → UInt8) (dest : Nat) (byte : UInt8) (bytes : List UInt8) :
    bcopy outbuffer dest (byte :: bytes) = bcopy (store outbuffer (dest, byte)) (dest + 1) bytes := by
  funext index
  rcases Nat.lt_trichotomy index dest with before | here | behind
  · have outside : ¬ (dest ≤ index ∧ index < dest + (byte :: bytes).length ∧ index < outbufferSize) := by
      omega
    have outsideRest : ¬ (dest + 1 ≤ index ∧ index < dest + 1 + bytes.length ∧
        index < outbufferSize) := by omega
    rw [bcopy, bcopy, if_neg outside, if_neg outsideRest, store]
    split
    · rw [Function.update_of_ne (by omega)]
    · rfl
  · have outsideRest : ¬ (dest + 1 ≤ index ∧ index < dest + 1 + bytes.length ∧
        index < outbufferSize) := by omega
    rw [bcopy, bcopy, if_neg outsideRest, store, here]
    by_cases inside : dest < outbufferSize
    · rw [if_pos ⟨Nat.le_refl dest, by simp, inside⟩, if_pos inside, Function.update_self,
        Nat.sub_self, List.getD_cons_zero]
    · rw [if_neg (by omega), if_neg inside]
  · obtain ⟨offset, rfl⟩ := Nat.exists_eq_add_of_lt behind
    have same : (dest ≤ dest + offset + 1 ∧ dest + offset + 1 < dest + (byte :: bytes).length ∧
        dest + offset + 1 < outbufferSize) ↔ (dest + 1 ≤ dest + offset + 1 ∧
        dest + offset + 1 < dest + 1 + bytes.length ∧ dest + offset + 1 < outbufferSize) := by
      rw [List.length_cons]
      omega
    have kept : store outbuffer (dest, byte) (dest + offset + 1) = outbuffer (dest + offset + 1) := by
      rw [store]
      split
      · rw [Function.update_of_ne (by simp only; omega)]
      · rfl
    have first : dest + offset + 1 - dest = offset + 1 := by omega
    have second : dest + offset + 1 - (dest + 1) = offset := by omega
    simp only [bcopy, same, first, second, List.getD_cons_succ, kept]

/-- `bcopy` does its stores one after the other, each of which has an effect if it is
inside of `outbuffer`. -/
theorem bcopy_stores (outbuffer : Nat → UInt8) (dest : Nat) (bytes : List UInt8) :
    bcopy outbuffer dest bytes = (bcopyStores dest bytes).foldl store outbuffer := by
  induction bytes generalizing outbuffer dest with
  | nil =>
    funext index
    have outside : ¬ (dest ≤ index ∧ index < dest + 0 ∧ index < outbufferSize) := by omega
    simp only [bcopy, List.length_nil, if_neg outside, bcopyStores, List.zip_nil_right,
      List.foldl_nil]
  | cons byte bytes inductionHypothesis =>
    rw [bcopy_cons, inductionHypothesis, bcopyStores, bcopyStores, List.length_cons, List.range'_succ,
      List.zip_cons_cons, List.foldl_cons]

/-- So does the copy of a whole chain. -/
theorem copyChain_stores (segments : List (List UInt8)) (outbuffer : Nat → UInt8) (dest : Nat) :
    copyChain outbuffer dest segments = (copyStores dest segments).foldl store outbuffer := by
  induction segments generalizing outbuffer dest with
  | nil => rfl
  | cons bytes rest inductionHypothesis =>
    rw [copyChain, inductionHypothesis, bcopy_stores, copyStores, List.foldl_append]

/-- `outbuffer` is left as the stores leave it. -/
theorem fillOutbuffer_stores (outbuffer : Nat → UInt8) (p : PBuf) :
    fillOutbuffer outbuffer p = (stores p).foldl store outbuffer := by
  have first : (0 : Nat) < outbufferSize := by decide
  have second : (1 : Nat) < outbufferSize := by decide
  rw [fillOutbuffer, copyChain_stores, stores, List.foldl_append]
  simp only [List.foldl_cons, List.foldl_nil, store, if_pos first, if_pos second]

/-- The loop stores one byte after the other. -/
theorem copyStores_offsets (dest : Nat) (segments : List (List UInt8)) :
    (copyStores dest segments).map Prod.fst = List.range' dest segments.flatten.length := by
  induction segments generalizing dest with
  | nil => rfl
  | cons bytes rest inductionHypothesis =>
    rw [copyStores, List.map_append, inductionHypothesis, bcopyStores,
      List.map_fst_zip (List.length_range' ▸ Nat.le_refl _), List.flatten_cons, List.length_append,
      List.range'_append_1]

/-- The offsets of the stores. -/
theorem stores_offsets (p : PBuf) :
    (stores p).map Prod.fst = List.range' 2 p.bytes.length ++ [0, 1] := by
  rw [stores, List.map_append, copyStores_offsets, PBuf.bytes, List.map_cons, List.map_cons,
    List.map_nil]

/-- The stores are inside of `outbuffer` exactly when the frame fits behind the prefix. -/
theorem stores_inside (p : PBuf) :
    (∀ stored ∈ stores p, stored.1 < outbufferSize) ↔ p.bytes.length + 2 ≤ outbufferSize := by
  have offsets : (∀ stored ∈ stores p, stored.1 < outbufferSize) ↔
      ∀ offset ∈ List.range' 2 p.bytes.length ++ [0, 1], offset < outbufferSize := by
    rw [← stores_offsets, List.forall_mem_map]
  rw [offsets]
  constructor
  · intro inside
    rcases Nat.eq_zero_or_pos p.bytes.length with empty | nonempty
    · rw [empty]
      decide
    · have last : p.bytes.length + 1 ∈ List.range' 2 p.bytes.length ++ [0, 1] := by
        apply List.mem_append_left
        rw [List.mem_range'_1]
        omega
      exact inside _ last
  · intro fits offset stored
    rw [List.mem_append, List.mem_range'_1] at stored
    rcases stored with copied | lengthByte
    · omega
    · have small : offset < 2 := by
        simp only [List.mem_cons, List.not_mem_nil, or_false] at lengthByte
        omega
      rw [outbufferSize]
      omega

/-- The transfer reads inside of `outbuffer` exactly when `tot_len` fits behind the prefix. -/
theorem transferReads_inside (p : PBuf) :
    (∀ offset ∈ transferReads p, offset < outbufferSize) ↔ p.totLen + 2 ≤ outbufferSize := by
  constructor
  · intro inside
    exact inside (p.totLen + 1) (List.mem_range.mpr (Nat.lt_succ_self _))
  · intro fits offset read
    exact Nat.lt_of_lt_of_le (List.mem_range.mp read) fits

/-- `low_level_output` keeps to `outbuffer` exactly for frames of at most 1498 bytes.

Proof: the stores are the prefix and the bytes of the frame, one behind the other, and the
transfer reads as many. Both ends are compared with the size of the buffer. -/
theorem lowLevelOutput_inside {p : PBuf} (whole : p.Whole) :
    ((∀ stored ∈ stores p, stored.1 < outbufferSize) ∧
      ∀ offset ∈ transferReads p, offset < outbufferSize) ↔ p.bytes.length ≤ 1498 := by
  rw [stores_inside, transferReads_inside, whole, and_self, outbufferSize]
  omega

/-- A short frame is inside. -/
theorem lowLevelOutput_inside_short :
    ((∀ stored ∈ stores ⟨3, [[1, 2], [], [3]]⟩, stored.1 < outbufferSize) ∧
      ∀ offset ∈ transferReads ⟨3, [[1, 2], [], [3]]⟩, offset < outbufferSize) ↔ 3 ≤ 1498 :=
  lowLevelOutput_inside rfl

/-- The largest Ethernet frame goes past the end, both when it is copied and when it is sent. -/
theorem lowLevelOutput_beyond : ∃ p : PBuf, p.Whole ∧ p.bytes.length ≤ 1514 ∧
    ¬ (∀ stored ∈ stores p, stored.1 < outbufferSize) ∧
    ¬ (∀ offset ∈ transferReads p, offset < outbufferSize) := by
  have length : (PBuf.bytes ⟨1514, [List.replicate 14 0, List.replicate 1500 0]⟩).length = 1514 := by
    simp only [PBuf.bytes, List.flatten_cons, List.flatten_nil, List.append_nil, List.length_append,
      List.length_replicate]
  refine ⟨⟨1514, [List.replicate 14 0, List.replicate 1500 0]⟩, length.symm, Nat.le_of_eq length,
    ?_, ?_⟩
  · rw [stores_inside, length]
    decide
  · rw [transferReads_inside]
    decide

end Ps2Eth.Ps2klsi
