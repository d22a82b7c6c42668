import Ps2Eth.SmapLinux.TxMemory

/-!
# The two ways a packet takes to the transmit memory

`SMap_Send` of `smap-linux/smap.c` copies an aligned packet in one piece straight
to the FIFO. Any other chain it gathers in `au32TXBuf` first, and copies that.
Both round the length up to whole words, so the last word carries bytes that
belong to nobody: what follows the payload, or what `au32TXBuf` held before.

The bytes up to `tot_len` are those of the chain either way.
-/

namespace Ps2Eth.SmapLinux

/-- `SMAP_TXMAXTAILPAD`, the bytes that `au32TXBuf` has beyond the longest frame. -/
def smapTxMaxTailPad : Nat := 4

/-- The size of `au32TXBuf` in bytes. -/
def txBufBytes : Nat := 4 * ((smapTxMaxSize + smapTxMaxTailPad + 3) / 4)

/-- The bytes of a pbuf that count. -/
def Segment.bytes (src : Segment) : List UInt8 := (List.range src.len).map src.payload

/-- The pbufs of a chain, in order. -/
def PBuf.segments (pPacket : PBuf) : List Segment := pPacket.first :: pPacket.rest

/-- The bytes of a chain, in order. -/
def PBuf.bytes (pPacket : PBuf) : List UInt8 := pPacket.segments.flatMap Segment.bytes

/-- The `len` fields of pbufs, summed. -/
def lensOf (segments : List Segment) : Nat := (segments.map Segment.len).sum

/-- An empty chain has no bytes. -/
@[simp] theorem lensOf_nil : lensOf [] = 0 := rfl

/-- The length of a chain is that of its first segment and of the rest. -/
@[simp] theorem lensOf_cons (src : Segment) (rest : List Segment) :
    lensOf (src :: rest) = src.len + lensOf rest := by simp [lensOf]

/-- `tot_len` is the sum of the `len` fields. -/
def PBuf.Whole (pPacket : PBuf) : Prop := pPacket.totLen = lensOf pPacket.segments

/-- The bytes of `au32TXBuf` that `CopyToTXBuffer` stores, in order. -/
def storesOf (dest : Nat) : List Segment → List Nat
  | [] => []
  | src :: rest => List.range' dest src.len ++ storesOf (dest + src.len) rest

/-- The bytes of its source that `CopyToFIFO` loads, in order. -/
def loadsOf (iLen : Nat) : List Nat :=
  (List.range ((iLen + 3) / 4)).flatMap fun word => List.range' (4 * word) 4

/-- The bytes of `au32TXBuf` that `SMap_Send` stores and loads for a packet that
passes its checks. -/
def txBufAccesses (pPacket : PBuf) : List Nat :=
  if pPacket.totLen = pPacket.first.len && isWordAligned pPacket then []
  else storesOf 0 pPacket.segments ++ loadsOf (roundUp pPacket.totLen)

/-- The copy of a chain stores the bytes from its destination on, as many as the
chain has. -/
theorem mem_storesOf (segments : List Segment) (dest offset : Nat) :
    offset ∈ storesOf dest segments ↔ dest ≤ offset ∧ offset < dest + lensOf segments := by
  induction segments generalizing dest with
  | nil =>
    simp only [storesOf, List.not_mem_nil, lensOf_nil, false_iff]
    omega
  | cons src rest inductionHypothesis =>
    simp only [storesOf, List.mem_append, List.mem_range'_1, inductionHypothesis, lensOf_cons]
    omega

/-- The copy of a chain leaves the bytes it does not store as they were. -/
theorem copyToTXBuffer_outside (segments : List Segment) (buffer : Nat → UInt8) (dest : Nat)
    {offset : Nat} (outside : offset ∉ storesOf dest segments) :
    copyToTXBuffer buffer dest segments offset = buffer offset := by
  induction segments generalizing buffer dest with
  | nil => rfl
  | cons src rest inductionHypothesis =>
    simp only [storesOf, List.mem_append, not_or] at outside
    obtain ⟨notHere, notLater⟩ := outside
    rw [List.mem_range'_1] at notHere
    rw [copyToTXBuffer, inductionHypothesis _ _ notLater, if_neg notHere]

/-- A byte after the copy of a chain depends on what the same byte held before only. -/
theorem copyToTXBuffer_congr (segments : List Segment) {buffer buffer' : Nat → UInt8} (dest : Nat)
    {offset : Nat} (same : buffer offset = buffer' offset) :
    copyToTXBuffer buffer dest segments offset = copyToTXBuffer buffer' dest segments offset := by
  induction segments generalizing buffer buffer' dest with
  | nil => exact same
  | cons src rest inductionHypothesis =>
    rw [copyToTXBuffer, copyToTXBuffer]
    apply inductionHypothesis
    rw [same]

/-- The bytes a copy of a chain leaves at its destination are those of the chain. -/
theorem copyToTXBuffer_bytes (segments : List Segment) (buffer : Nat → UInt8) (dest : Nat) :
    (List.range (lensOf segments)).map
        (fun offset => copyToTXBuffer buffer dest segments (dest + offset)) =
      segments.flatMap Segment.bytes := by
  induction segments generalizing buffer dest with
  | nil => simp
  | cons src rest inductionHypothesis =>
    rw [lensOf_cons, List.range_add, List.map_append, List.flatMap_cons, copyToTXBuffer]
    congr 1
    · -- the later pbufs are stored behind this one
      apply List.map_congr_left
      intro offset member
      have before : offset < src.len := List.mem_range.mp member
      have behind : dest + offset ∉ storesOf (dest + src.len) rest := by
        rw [mem_storesOf]
        omega
      rw [copyToTXBuffer_outside rest _ _ behind, if_pos (by omega), Nat.add_sub_cancel_left]
    · have later := inductionHypothesis (fun offset =>
        if dest ≤ offset ∧ offset < dest + src.len then src.payload (offset - dest)
        else buffer offset) (dest + src.len)
      rw [← later, List.map_map]
      apply List.map_congr_left
      intro offset _
      rw [Function.comp_apply, Nat.add_assoc]

/-- The copy loop loads every word that holds a byte of the frame, and no other. -/
theorem mem_loadsOf (iLen offset : Nat) : offset ∈ loadsOf iLen ↔ offset < 4 * ((iLen + 3) / 4) := by
  simp only [loadsOf, List.mem_flatMap, List.mem_range, List.mem_range'_1]
  constructor
  · rintro ⟨word, earlier, loaded⟩
    omega
  · intro inside
    exact ⟨offset / 4, by omega, by omega, by omega⟩

/-- `CopyToFIFO` depends on the bytes it loads only. -/
theorem copyToFIFO_congr (smap : SMap) {src src' : Nat → UInt8} {iLen : Nat}
    (agree : ∀ offset ∈ loadsOf iLen, src offset = src' offset) :
    copyToFIFO smap src iLen = copyToFIFO smap src' iLen := by
  have same : (List.range (4 * ((iLen + 3) / 4))).map src =
      (List.range (4 * ((iLen + 3) / 4))).map src' := by
    apply List.map_congr_left
    intro offset member
    exact agree offset ((mem_loadsOf iLen offset).mpr (List.mem_range.mp member))
  rw [copyToFIFO_push, copyToFIFO_push, same]

/-- The transmit memory behind the end pointer takes the first bytes of the source. -/
theorem copyToFIFO_window {smap : SMap} (src : Nat → UInt8) {count : Nat}
    (ends : smap.tx.u16PTREnd < smapTxBufSize) (fits : roundUp count ≤ smapTxBufSize) :
    Ring.window (copyToFIFO smap src (roundUp count)).cells smapTxBufSize smap.tx.u16PTREnd count =
      (List.range count).map src := by
  have rounded := roundUp_bounds count
  have words : 4 * ((roundUp count + 3) / 4) = roundUp count := by omega
  have filled := DataPort.push_window { smap.fifo with pointer := smap.tx.u16PTREnd }
    ((List.range (roundUp count)).map src) ends (by simpa using fits)
  rw [List.length_map, List.length_range] at filled
  rw [copyToFIFO_push, words, ← Ring.window_take _ _ _ rounded.1, filled, ← List.map_take,
    List.take_range, Nat.min_eq_left rounded.1]

/-- The bytes of a chain whose first pbuf holds all of them. -/
theorem PBuf.bytes_of_single {pPacket : PBuf} (whole : pPacket.Whole)
    (single : pPacket.totLen = pPacket.first.len) : pPacket.bytes = pPacket.first.bytes := by
  have empty : lensOf pPacket.rest = 0 := by
    rw [PBuf.Whole, PBuf.segments, lensOf_cons] at whole
    omega
  have nothing : pPacket.rest.flatMap Segment.bytes = [] := by
    have stored := copyToTXBuffer_bytes pPacket.rest (fun _ => 0) 0
    rw [empty] at stored
    exact stored.symm
  rw [PBuf.bytes, PBuf.segments, List.flatMap_cons, nothing, List.append_nil]

/-- What `SMap_Send` leaves behind for a packet it accepted. -/
structure Copied (smap next : SMap) (pPacket : PBuf) : Prop where
  bytes : Ring.window next.fifo.cells smapTxBufSize smap.tx.u16PTREnd pPacket.totLen = pPacket.bytes
  length : (next.tx.pBD smap.tx.u8IndexEnd).length = pPacket.totLen
  pointer : (next.tx.pBD smap.tx.u8IndexEnd).pointer = smap.tx.u16PTREnd + smapTxBufBase
  ends : next.tx.u16PTREnd = (smap.tx.u16PTREnd + roundUp pPacket.totLen) % smapTxBufSize
  inside : ∀ offset ∈ txBufAccesses pPacket, offset < txBufBytes
  kept : ∀ offset, txBufBytes ≤ offset → next.au32TXBuf offset = smap.au32TXBuf offset

/-- The accesses to `au32TXBuf` stay inside it: a packet has at most 1514 bytes. -/
theorem txBufAccesses_inside {pPacket : PBuf} (whole : pPacket.Whole)
    (size : pPacket.totLen ≤ smapTxMaxSize) : ∀ offset ∈ txBufAccesses pPacket, offset < txBufBytes := by
  have rounded := roundUp_bounds pPacket.totLen
  rw [PBuf.Whole] at whole
  intro offset accessed
  rw [txBufAccesses] at accessed
  split at accessed
  · simp at accessed
  · simp only [List.mem_append, mem_storesOf, mem_loadsOf, ← whole] at accessed
    simp only [smapTxMaxSize, smapTxMaxTailPad, txBufBytes] at size ⊢
    omega

/-- The transmit memory of an accepted packet, whichever way it takes. -/
theorem Accepts.window {smap : SMap} {pPacket : PBuf} {gnp : Nat → Bool}
    (accepts : Accepts smap pPacket gnp) (ends : smap.tx.u16PTREnd < smapTxBufSize)
    (whole : pPacket.Whole) :
    Ring.window (sMapSend smap pPacket gnp).2.fifo.cells smapTxBufSize smap.tx.u16PTREnd
      pPacket.totLen = pPacket.bytes := by
  obtain ⟨link, size, free, emac⟩ := accepts
  have rounded := roundUp_bounds pPacket.totLen
  have fits : roundUp pPacket.totLen ≤ smapTxBufSize := by
    simp only [smapTxMaxSize, smapTxBufSize] at *
    omega
  simp only [sMapSend, link, emac, Nat.not_lt.mpr size, Nat.not_lt.mpr free, Bool.not_true,
    Bool.false_eq_true, ↓reduceIte]
  split
  · rename_i direct
    have single : pPacket.totLen = pPacket.first.len := by
      simp only [Bool.and_eq_true, decide_eq_true_eq] at direct
      exact direct.1
    rw [copyToFIFO_window _ ends fits, PBuf.bytes_of_single whole single, Segment.bytes, single]
  · have gathered := copyToTXBuffer_bytes pPacket.segments smap.au32TXBuf 0
    rw [PBuf.Whole] at whole
    simp only [Nat.zero_add, ← whole] at gathered
    exact (copyToFIFO_window _ ends fits).trans gathered

/-- What `SMap_Send` leaves of `au32TXBuf` where it makes no access. -/
theorem sMapSend_txBuf (smap : SMap) (pPacket : PBuf) (gnp : Nat → Bool) {offset : Nat}
    (outside : offset ∉ txBufAccesses pPacket) :
    (sMapSend smap pPacket gnp).2.au32TXBuf offset = smap.au32TXBuf offset := by
  simp only [sMapSend]
  split
  · rfl
  · split
    · rfl
    · split
      · rfl
      · split
        · rfl
        · split
          · rfl
          · rename_i gathered
            rw [txBufAccesses, if_neg gathered, List.mem_append, not_or] at outside
            exact copyToTXBuffer_outside _ _ _ outside.1

/-- The same packet is sent from two buffers that agree where `SMap_Send` makes an access:
the bytes it does not access are not loaded.

Proof: `CopyToFIFO` depends on the bytes it loads, and each of these, after
`CopyToTXBuffer`, on the byte that stood there before. -/
theorem sMapSend_loads (smap : SMap) (pPacket : PBuf) (gnp : Nat → Bool) {au32TXBuf : Nat → UInt8}
    (agree : ∀ offset ∈ txBufAccesses pPacket, au32TXBuf offset = smap.au32TXBuf offset) :
    (sMapSend { smap with au32TXBuf := au32TXBuf } pPacket gnp).1 = (sMapSend smap pPacket gnp).1 ∧
      (sMapSend { smap with au32TXBuf := au32TXBuf } pPacket gnp).2.tx =
        (sMapSend smap pPacket gnp).2.tx ∧
      (sMapSend { smap with au32TXBuf := au32TXBuf } pPacket gnp).2.fifo =
        (sMapSend smap pPacket gnp).2.fifo := by
  simp only [sMapSend]
  split
  · exact ⟨rfl, rfl, rfl⟩
  · split
    · exact ⟨rfl, rfl, rfl⟩
    · split
      · exact ⟨rfl, rfl, rfl⟩
      · split
        · exact ⟨rfl, rfl, rfl⟩
        · split
          · exact ⟨rfl, rfl, rfl⟩
          · rename_i gathered
            refine ⟨rfl, rfl, copyToFIFO_congr smap ?_⟩
            intro offset loaded
            apply copyToTXBuffer_congr
            apply agree
            rw [txBufAccesses, if_neg gathered]
            exact List.mem_append_right _ loaded

/-- The end pointer stays inside the transmit memory in every run. -/
theorem run_end_inside {steps : List (State × Action)} {state : State} (run : TxRun steps state) :
    state.smap.tx.u16PTREnd < smapTxBufSize := by
  refine Runs.state_invariant (fun state => state.smap.tx.u16PTREnd < smapTxBufSize) ?_ ?_ run
  · intro fresh initial
    rw [initial.tx]
    decide
  · intro before action next inside taken
    cases step_moves taken with
    | refused | handleTXInt | unfinished | reap | reaped | complete | link => exact inside
    | sent here accepted =>
      rw [accepted.append]
      exact Nat.mod_lt _ (by decide)

/-- A packet that is sent arrives in the transmit memory as the chain's bytes in
order, by either way and whatever `au32TXBuf` held before; a packet that is not
sent changes nothing. What becomes of a packet depends on `au32TXBuf` only where
an access to it is made.

Proof: the copy is compared byte by byte with the chain, on both ways, and the writes of
the FIFO with the memory that they go to. A packet that is not sent has failed a check,
and no check writes. The loads are those of the copy loops, by induction on the
segments. -/
theorem sMapSend_copies (smap : SMap) (pPacket : PBuf) (gnp : Nat → Bool)
    (ends : smap.tx.u16PTREnd < smapTxBufSize) (whole : pPacket.Whole) :
    ((sMapSend smap pPacket gnp).1 = .ok → Copied smap (sMapSend smap pPacket gnp).2 pPacket) ∧
      ((sMapSend smap pPacket gnp).1 ≠ .ok → (sMapSend smap pPacket gnp).2 = smap) ∧
      ∀ au32TXBuf : Nat → UInt8,
        (∀ offset ∈ txBufAccesses pPacket, au32TXBuf offset = smap.au32TXBuf offset) →
        (sMapSend { smap with au32TXBuf := au32TXBuf } pPacket gnp).1 =
            (sMapSend smap pPacket gnp).1 ∧
          (sMapSend { smap with au32TXBuf := au32TXBuf } pPacket gnp).2.tx =
            (sMapSend smap pPacket gnp).2.tx ∧
          (sMapSend { smap with au32TXBuf := au32TXBuf } pPacket gnp).2.fifo =
            (sMapSend smap pPacket gnp).2.fifo := by
  refine ⟨?_, ?_, fun _ agree => sMapSend_loads smap pPacket gnp agree⟩
  · intro sent
    have accepts := (sMapSend_ok_iff smap pPacket gnp).mp sent
    have size := accepts.size
    simp only [smapTxMaxSize] at size
    constructor
    · exact accepts.window ends whole
    · simp only [accepts.append, SMapCB.append, Function.update_self]
      omega
    · simp only [accepts.append, SMapCB.append, Function.update_self, smapTxBufBase, smapTxBufSize]
        at ends ⊢
      omega
    · rw [accepts.append]
      rfl
    · exact txBufAccesses_inside whole accepts.size
    · intro offset behind
      apply sMapSend_txBuf
      intro accessed
      have inside := txBufAccesses_inside whole accepts.size offset accessed
      omega
  · intro refused
    exact sMapSend_refused (mt (sMapSend_ok_iff smap pPacket gnp).mpr refused)

/-- Two pbufs of three bytes each, the first of them not aligned. -/
def oddChain : PBuf where
  totLen := 6
  first := ⟨fun offset => 10 + offset.toUInt8, 3, 0x80001⟩
  rest := [⟨fun offset => 20 + offset.toUInt8, 3, 0x80100⟩]

/-- A driver whose end pointer is four bytes before the end of the memory. -/
def wrappingDriver : SMap where
  tx := { txBdInit with u16PTRStart := 4092, u16PTREnd := 4092 }
  au32TXBuf := fun _ => 0xaa
  fifo := ⟨fun _ => 0, 0⟩
  linkValid := true

/-- Its bytes run over the end of the memory. -/
theorem sMapSend_copies_wrapped :
    (sMapSend wrappingDriver oddChain fun _ => false).1 = .ok ∧
      Ring.window (sMapSend wrappingDriver oddChain fun _ => false).2.fifo.cells smapTxBufSize 4092
        6 = [10, 11, 12, 20, 21, 22] := by
  have sent : (sMapSend wrappingDriver oddChain fun _ => false).1 = .ok := by decide +kernel
  have copies := sMapSend_copies wrappingDriver oddChain (fun _ => false) (by decide) rfl
  exact ⟨sent, (copies.1 sent).bytes⟩

end Ps2Eth.SmapLinux
