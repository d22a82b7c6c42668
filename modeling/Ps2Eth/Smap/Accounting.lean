import Ps2Eth.Smap.Transfer

/-!
# Accounting of the transmit ring and FIFO

One invariant ties the driver's two 8-bit indices, its frame count and byte
budget to the descriptors in flight and to the hardware's write pointer: the
frames in flight are laid one behind the other in the transmit memory, the last
of them ending at the write pointer, and the budget is what they leave free.

Between `CopyToFIFO` and the descriptor update of `HandleTxReqs` the FIFO holds
one segment more than the ring; the invariant carries it as `copied`.
-/

namespace Ps2Eth.Smap

open DataPort (Laid total)

/-- The FIFO region charged for a descriptor: its start and its size. -/
def SmapBd.segment (bd : SmapBd) : Nat × Nat := (bd.pointer, sizeRounded bd.length)

namespace Adapter

/-- The FIFO regions of the frames in flight, oldest first. -/
def segments (adapter : Adapter) : List (Nat × Nat) := adapter.inFlight.map SmapBd.segment

/-- The accounting invariant, with the segments copied but not yet in a
descriptor. -/
structure Accounted (adapter : Adapter) (copied : List (Nat × Nat)) : Prop where
  nextIndex : adapter.drv.txBDIndex < 256
  oldestIndex : adapter.drv.txDNVBDIndex < 256
  count : adapter.drv.numPacketsInTx =
    (adapter.drv.txBDIndex + 256 - adapter.drv.txDNVBDIndex) % 256
  ring : adapter.drv.numPacketsInTx ≤ smapBdMaxEntry
  space : adapter.drv.txBufferSpaceAvailable + total adapter.segments = smapTxBufsize
  room : total copied ≤ adapter.drv.txBufferSpaceAvailable
  pointer : adapter.fifo.pointer < smapTxBufsize
  laid : ∃ start, Laid smapTxBufsize start (adapter.segments ++ copied) ∧
    adapter.fifo.pointer = (start + total (adapter.segments ++ copied)) % smapTxBufsize

/-- `smap_init` leaves nothing in flight and the whole memory free. -/
theorem smapInit_accounted (memory : Nat → UInt8) : (smapInit memory).Accounted [] where
  nextIndex := by simp [smapInit]
  oldestIndex := by simp [smapInit]
  count := by simp [smapInit]
  ring := by simp [smapInit]
  space := by simp [smapInit, segments, inFlight]
  room := by simp
  pointer := by simp [smapInit, smapTxBufsize]
  laid := ⟨0, by simp [smapInit, segments, inFlight, Laid], by simp [smapInit, segments, inFlight]⟩

/-- With nothing in flight the whole memory is free. -/
theorem Accounted.idle {adapter : Adapter} {copied : List (Nat × Nat)}
    (accounted : adapter.Accounted copied) (idle : adapter.drv.numPacketsInTx = 0) :
    adapter.drv.txBufferSpaceAvailable = smapTxBufsize := by
  have space := accounted.space
  simpa [segments, inFlight, idle] using space

/-- The next index to write is the slot just past the window in flight: 256 is a
multiple of the ring size. -/
theorem Accounted.next_slot {adapter : Adapter} {copied : List (Nat × Nat)}
    (accounted : adapter.Accounted copied) :
    adapter.drv.txBDIndex % smapBdMaxEntry =
      (adapter.drv.txDNVBDIndex + adapter.drv.numPacketsInTx) % smapBdMaxEntry := by
  have nextIndex := accounted.nextIndex
  have oldestIndex := accounted.oldestIndex
  have count := accounted.count
  unfold smapBdMaxEntry
  omega

/-- The slot `HandleTxReqs` writes is none of those in flight. -/
theorem Accounted.next_slot_free {adapter : Adapter} {copied : List (Nat × Nat)}
    (accounted : adapter.Accounted copied) (notFull : adapter.drv.numPacketsInTx < smapBdMaxEntry)
    {offset : Nat} (inFlight : offset < adapter.drv.numPacketsInTx) :
    (adapter.drv.txDNVBDIndex + offset) % smapBdMaxEntry ≠
      adapter.drv.txBDIndex % smapBdMaxEntry := by
  rw [accounted.next_slot]
  exact Ring.slots_ne (by omega) (by omega) notFull

/-- The FIFO regions of the frames in flight are pairwise apart. -/
theorem Accounted.apart {adapter : Adapter} {copied : List (Nat × Nat)}
    (accounted : adapter.Accounted copied) :
    adapter.segments.Pairwise (DataPort.Apart smapTxBufsize) := by
  obtain ⟨start, laid, _⟩ := accounted.laid
  have fits : total (adapter.segments ++ copied) ≤ smapTxBufsize := by
    rw [DataPort.total_append]
    have space := accounted.space
    have room := accounted.room
    omega
  exact (List.pairwise_append.mp (DataPort.laid_apart laid fits)).1

/-- Copying a frame that fits the free space, before its descriptor is written. -/
theorem Accounted.copy {adapter : Adapter} (accounted : adapter.Accounted []) {length : Nat}
    (buffer : Nat → UInt8) (dmaOk : Bool)
    (fits : sizeRounded length ≤ adapter.drv.txBufferSpaceAvailable) :
    { adapter with fifo := copyToFIFO adapter.fifo buffer length dmaOk }.Accounted
      [((adapter.fifo.pointer + smapTxBase) % 65536, sizeRounded length)] := by
  obtain ⟨start, laid, atEnd⟩ := accounted.laid
  simp only [List.append_nil] at laid atEnd
  have pointer := accounted.pointer
  have advanced : (copyToFIFO adapter.fifo buffer length dmaOk).pointer =
      (adapter.fifo.pointer + sizeRounded length) % smapTxBufsize := by
    rw [copyToFIFO_push, DataPort.push_pointer _ _ pointer, List.length_map, List.length_range]
  refine ⟨accounted.nextIndex, accounted.oldestIndex, accounted.count, accounted.ring,
    accounted.space, by simpa using fits, ?_, start, ?_, ?_⟩
  · show (copyToFIFO adapter.fifo buffer length dmaOk).pointer < smapTxBufsize
    rw [advanced]
    exact Nat.mod_lt _ (by decide)
  · refine (DataPort.laid_snoc _ _).mpr ⟨laid, ?_⟩
    show (adapter.fifo.pointer + smapTxBase) % 65536 % smapTxBufsize =
      (start + total adapter.segments) % smapTxBufsize
    unfold smapTxBase smapTxBufsize at *
    omega
  · show (copyToFIFO adapter.fifo buffer length dmaOk).pointer =
      (start + total (adapter.segments ++ [_])) % smapTxBufsize
    rw [advanced, DataPort.total_snoc, atEnd, Nat.mod_add_mod, Nat.add_assoc]

/-- The ring after a descriptor is written: one frame more, behind the others. -/
theorem Accounted.queueBd_inFlight {adapter : Adapter} {copied : List (Nat × Nat)}
    (accounted : adapter.Accounted copied) (notFull : adapter.drv.numPacketsInTx < smapBdMaxEntry)
    (length bdDataPtr : Nat) :
    (adapter.queueBd length bdDataPtr).inFlight = adapter.inFlight ++
      [⟨smapBdTxReady ||| smapBdTxGenfcs ||| smapBdTxGenpad, length % 65536, bdDataPtr⟩] := by
  have counted : (adapter.drv.numPacketsInTx + 1) % 256 = adapter.drv.numPacketsInTx + 1 := by
    unfold smapBdMaxEntry at notFull
    omega
  unfold inFlight queueBd
  simp only [counted, accounted.next_slot]
  exact Ring.window_push _ _ notFull

/-- Writing the descriptor of the copied frame settles the accounts. -/
theorem Accounted.queueBd {adapter : Adapter} {length bdDataPtr : Nat}
    (accounted : adapter.Accounted [(bdDataPtr, sizeRounded length)])
    (notFull : adapter.drv.numPacketsInTx < smapBdMaxEntry) :
    (adapter.queueBd length bdDataPtr).Accounted [] := by
  have room : sizeRounded length ≤ adapter.drv.txBufferSpaceAvailable := by
    simpa using accounted.room
  have space := accounted.space
  have short : length % 65536 = length := by
    have rounded := sizeRounded_bounds length
    unfold smapTxBufsize at space
    omega
  have written : (adapter.queueBd length bdDataPtr).segments =
      adapter.segments ++ [(bdDataPtr, sizeRounded length)] := by
    unfold segments
    rw [accounted.queueBd_inFlight notFull, List.map_append]
    simp [SmapBd.segment, short]
  obtain ⟨start, laid, atEnd⟩ := accounted.laid
  have nextIndex := accounted.nextIndex
  have oldestIndex := accounted.oldestIndex
  have count := accounted.count
  unfold smapBdMaxEntry at notFull
  constructor
  · exact Nat.mod_lt _ (by decide)
  · exact oldestIndex
  · show (adapter.drv.numPacketsInTx + 1) % 256 =
      ((adapter.drv.txBDIndex + 1) % 256 + 256 - adapter.drv.txDNVBDIndex) % 256
    omega
  · show (adapter.drv.numPacketsInTx + 1) % 256 ≤ 64
    omega
  · rw [written, DataPort.total_snoc]
    show adapter.drv.txBufferSpaceAvailable - sizeRounded length + _ = _
    omega
  · simp
  · exact accounted.pointer
  · exact ⟨start, by rw [written, List.append_nil]; exact laid,
      by rw [written, List.append_nil]; exact atEnd⟩

/-- What one turn of `HandleTxIntr` reaps is the oldest frame in flight, whose
descriptor the hardware has given back. -/
theorem reap_cases {adapter reaped : Adapter} (done : adapter.reap = some reaped) :
    0 < adapter.drv.numPacketsInTx ∧
      (adapter.bd (adapter.drv.txDNVBDIndex % smapBdMaxEntry)).ready = false ∧
      reaped.bd = adapter.bd ∧ reaped.fifo = adapter.fifo ∧
      reaped.drv.txBDIndex = adapter.drv.txBDIndex ∧
      reaped.drv.txDNVBDIndex = (adapter.drv.txDNVBDIndex + 1) % 256 ∧
      reaped.drv.numPacketsInTx = adapter.drv.numPacketsInTx - 1 ∧
      reaped.drv.txBufferSpaceAvailable = (adapter.drv.txBufferSpaceAvailable + sizeRounded
        (adapter.bd (adapter.drv.txDNVBDIndex % smapBdMaxEntry)).length) % 2 ^ 32 ∧
      reaped.drv.packetToSend = adapter.drv.packetToSend ∧
      reaped.drv.linkStatus = adapter.drv.linkStatus := by
  unfold reap at done
  split at done
  next some =>
    dsimp only at done
    split at done
    · simp at done
    next given =>
      cases done
      exact ⟨some, by simpa using given, rfl, rfl, rfl, rfl, rfl, rfl, rfl, rfl⟩
  · simp at done

/-- The frames in flight before a turn that reaps: the one reaped and the rest. -/
theorem reap_inFlight {adapter reaped : Adapter} (done : adapter.reap = some reaped) :
    adapter.inFlight =
      adapter.bd (adapter.drv.txDNVBDIndex % smapBdMaxEntry) :: reaped.inFlight := by
  obtain ⟨some, _, bds, _, _, oldest, count, _⟩ := reap_cases done
  have split : adapter.drv.numPacketsInTx = (adapter.drv.numPacketsInTx - 1) + 1 := by omega
  unfold inFlight
  rw [bds, oldest, count]
  conv_lhs => rw [split, Ring.window_pop]
  congr 1
  apply Ring.window_congr
  unfold smapBdMaxEntry
  omega

/-- Reaping refunds exactly what was charged. -/
theorem Accounted.reap {adapter reaped : Adapter} (accounted : adapter.Accounted [])
    (done : adapter.reap = some reaped) : reaped.Accounted [] := by
  obtain ⟨some, _, _, fifo, newest, oldest, count, space, _⟩ := reap_cases done
  have first : adapter.segments = SmapBd.segment
      (adapter.bd (adapter.drv.txDNVBDIndex % smapBdMaxEntry)) :: reaped.segments := by
    unfold segments
    rw [reap_inFlight done, List.map_cons]
  have before := accounted.space
  have counted := accounted.count
  have ring := accounted.ring
  have nextIndex := accounted.nextIndex
  have oldestIndex := accounted.oldestIndex
  obtain ⟨start, laid, atEnd⟩ := accounted.laid
  rw [List.append_nil, first] at laid atEnd
  rw [first, DataPort.total_cons] at before
  simp only [SmapBd.segment] at before
  constructor
  · rw [newest]
    exact nextIndex
  · rw [oldest]
    exact Nat.mod_lt _ (by decide)
  · rw [count, newest, oldest]
    unfold smapBdMaxEntry at ring
    omega
  · rw [count]
    omega
  · rw [space]
    unfold smapTxBufsize at *
    omega
  · simp
  · rw [fifo]
    exact accounted.pointer
  · refine ⟨start + (SmapBd.segment
      (adapter.bd (adapter.drv.txDNVBDIndex % smapBdMaxEntry))).2, ?_, ?_⟩
    · rw [List.append_nil]
      exact laid.2
    · rw [fifo, atEnd, List.append_nil, DataPort.total_cons, Nat.add_assoc]

/-- A completion changes no length and no pointer of a descriptor. -/
theorem complete_segments (adapter : Adapter) (index : Nat) (ctrlStat : BitVec 16) :
    (adapter.complete index ctrlStat).segments = adapter.segments :=
  Ring.map_window_update SmapBd.segment _ _ _ _ _ _ rfl

/-- Nor does it change any frame in flight. -/
theorem complete_frames (adapter : Adapter) (index : Nat) (ctrlStat : BitVec 16) :
    (adapter.complete index ctrlStat).inFlight.map (adapter.complete index ctrlStat).frameOf =
      adapter.inFlight.map adapter.frameOf :=
  Ring.map_window_update adapter.frameOf adapter.bd _ _ _ (index % smapBdMaxEntry)
    { adapter.bd (index % smapBdMaxEntry) with ctrlStat := ctrlStat &&& ~~~smapBdTxReady } rfl

/-- A completion touches none of the accounts. -/
theorem Accounted.complete {adapter : Adapter} {copied : List (Nat × Nat)}
    (accounted : adapter.Accounted copied) (index : Nat) (ctrlStat : BitVec 16) :
    (adapter.complete index ctrlStat).Accounted copied where
  nextIndex := accounted.nextIndex
  oldestIndex := accounted.oldestIndex
  count := accounted.count
  ring := accounted.ring
  space := by
    rw [complete_segments]
    exact accounted.space
  room := accounted.room
  pointer := accounted.pointer
  laid := by
    rw [complete_segments]
    exact accounted.laid

/-- Every descriptor that belongs to the hardware is one of those in flight. -/
def Owned (adapter : Adapter) : Prop :=
  ∀ slot < smapBdMaxEntry, (adapter.bd slot).ready = true →
    ∃ offset < adapter.drv.numPacketsInTx,
      (adapter.drv.txDNVBDIndex + offset) % smapBdMaxEntry = slot

/-- `smap_init` leaves no descriptor to the hardware. -/
theorem smapInit_owned (memory : Nat → UInt8) : (smapInit memory).Owned := by
  intro slot _ ready
  have cleared : ((smapInit memory).bd slot).ready = false := by
    change SmapBd.ready ⟨0, 0, 0⟩ = false
    decide
  rw [cleared] at ready
  cases ready

/-- The descriptor that `HandleTxReqs` hands over is counted in. -/
theorem Owned.queueBd {adapter : Adapter} {copied : List (Nat × Nat)} (owned : adapter.Owned)
    (accounted : adapter.Accounted copied) (notFull : adapter.drv.numPacketsInTx < smapBdMaxEntry)
    (length bdDataPtr : Nat) : (adapter.queueBd length bdDataPtr).Owned := by
  intro slot inside ready
  have counted : (adapter.queueBd length bdDataPtr).drv.numPacketsInTx =
      adapter.drv.numPacketsInTx + 1 := by
    change (adapter.drv.numPacketsInTx + 1) % 256 = adapter.drv.numPacketsInTx + 1
    unfold smapBdMaxEntry at notFull
    omega
  by_cases written : slot = adapter.drv.txBDIndex % smapBdMaxEntry
  · refine ⟨adapter.drv.numPacketsInTx, by omega, ?_⟩
    rw [written, accounted.next_slot]
    rfl
  · have before : (adapter.bd slot).ready = true := by
      simpa only [Adapter.queueBd, Function.update_of_ne written] using ready
    obtain ⟨offset, inFlight, here⟩ := owned slot inside before
    exact ⟨offset, by omega, here⟩

/-- What `HandleTxIntr` takes back no longer belonged to the hardware. -/
theorem Owned.reap {adapter reaped : Adapter} (owned : adapter.Owned)
    (done : adapter.reap = some reaped) : reaped.Owned := by
  obtain ⟨_, given, bds, _, _, oldest, count, _⟩ := reap_cases done
  intro slot inside ready
  rw [bds] at ready
  obtain ⟨offset, inFlight, here⟩ := owned slot inside ready
  cases offset with
  | zero =>
    rw [Nat.add_zero] at here
    rw [here, ready] at given
    cases given
  | succ offset =>
    refine ⟨offset, by omega, ?_⟩
    rw [oldest]
    unfold smapBdMaxEntry at *
    omega

/-- The hardware only gives descriptors back. -/
theorem Owned.complete {adapter : Adapter} (owned : adapter.Owned) (index : Nat)
    (ctrlStat : BitVec 16) : (adapter.complete index ctrlStat).Owned := by
  intro slot inside ready
  by_cases finished : slot = index % smapBdMaxEntry
  · have cleared : ((adapter.complete index ctrlStat).bd slot).ready = false := by
      have none : ~~~smapBdTxReady &&& smapBdTxReady = 0#16 := by decide
      simp [Adapter.complete, finished, SmapBd.ready, hasAny, BitVec.and_assoc, none]
    rw [cleared] at ready
    cases ready
  · have before : (adapter.bd slot).ready = true := by
      simpa only [Adapter.complete, Function.update_of_ne finished] using ready
    exact owned slot inside before

/-- The copied frame stands in the FIFO where its descriptor will point. -/
theorem Accounted.copy_frame {adapter : Adapter} (accounted : adapter.Accounted []) {length : Nat}
    (buffer : Nat → UInt8) (dmaOk : Bool)
    (fits : sizeRounded length ≤ adapter.drv.txBufferSpaceAvailable) :
    Ring.window (copyToFIFO adapter.fifo buffer length dmaOk).cells smapTxBufsize
        ((adapter.fifo.pointer + smapTxBase) % 65536) length =
      (List.range length).map buffer := by
  have rounded := sizeRounded_bounds length
  have space := accounted.space
  have whole := DataPort.push_window adapter.fifo ((List.range (sizeRounded length)).map buffer)
    accounted.pointer (by rw [List.length_map, List.length_range]; omega)
  rw [List.length_map, List.length_range, ← copyToFIFO_push adapter.fifo buffer length dmaOk] at whole
  have start : ((adapter.fifo.pointer + smapTxBase) % 65536) % smapTxBufsize =
      adapter.fifo.pointer % smapTxBufsize := by
    unfold smapTxBase smapTxBufsize
    omega
  rw [Ring.window_congr start, ← Ring.window_take _ _ _ rounded.1, whole, ← List.map_take,
    List.take_range, Nat.min_eq_left rounded.1]

/-- Copying a frame that fits leaves the frames in flight as they are. -/
theorem Accounted.copy_keeps_frames {adapter : Adapter} (accounted : adapter.Accounted [])
    {length : Nat} (buffer : Nat → UInt8) (dmaOk : Bool)
    (fits : sizeRounded length ≤ adapter.drv.txBufferSpaceAvailable)
    {bd : SmapBd} (member : bd ∈ adapter.inFlight) :
    { adapter with fifo := copyToFIFO adapter.fifo buffer length dmaOk }.frameOf bd =
      adapter.frameOf bd := by
  obtain ⟨start, laid, atEnd⟩ := accounted.laid
  rw [List.append_nil] at laid atEnd
  have space := accounted.space
  have rounded := sizeRounded_bounds bd.length
  have charged : bd.segment ∈ adapter.segments := List.mem_map_of_mem member
  have kept := DataPort.push_keeps_laid adapter.fifo ((List.range (sizeRounded length)).map buffer)
    accounted.pointer laid (by rw [atEnd, Nat.mod_mod])
    (by rw [List.length_map, List.length_range]; omega) charged
  rw [← copyToFIFO_push adapter.fifo buffer length dmaOk] at kept
  simp only [SmapBd.segment] at kept
  unfold frameOf
  rw [← Ring.window_take _ _ _ rounded.1, kept, Ring.window_take _ _ _ rounded.1]

end Adapter
end Ps2Eth.Smap
