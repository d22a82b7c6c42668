import Ps2Eth.Ps2klsi.Framing

/-!
# Input of the ps2klsi driver

`ethernetif_input` of `ps2klsi/ps2eth.c` passes on what `low_level_input` took from
`inbuffer`. Neither compares the length in the first two bytes with the bytes that
the transfer brought, or with the size of an Ethernet header.
-/

namespace Ps2Eth.Ps2klsi

/-- `ETHTYPE_ARP`, for which `etharp_arp_input` is called. -/
def ethtypeArp : Nat := 0x0806

/-- `ETHTYPE_IP`, for which the packet goes to the stack. -/
def ethtypeIp : Nat := 0x0800

/-- What becomes of the pbuf of a transfer. -/
inductive Fate where
  /-- There was no pbuf. -/
  | missing
  /-- `etharp_ip_input`, and then `netif->input`. -/
  | ipInput (p : PBuf)
  /-- `etharp_arp_input`. -/
  | arpInput (p : PBuf)
  /-- `pbuf_free`. -/
  | freed (p : PBuf)

/-- What `ethernetif_input` does with a transfer: the indices of `buf` that are read,
`tot_len` of the pbuf whose `ethhdr->type` is read, and what becomes of the pbuf. -/
structure Reception where
  reads : List Nat
  typeRead : Option Nat
  fate : Fate

/-- The payload of the first pbuf. Behind its bytes is what the memory held. -/
def payload (p : PBuf) (behind : Nat → UInt8) : Nat → UInt8 :=
  fun index => (p.segments.headD []).getD index (behind index)

/-- `htons(ethhdr->type)`: the two bytes behind the addresses, the first one upper. -/
def ethType (payload : Nat → UInt8) : Nat := (payload 12).toNat <<< 8 ||| (payload 13).toNat

/-- The `switch` of `ethernetif_input`: a packet of any other type is freed. -/
def fateOf (p : PBuf) (type : Nat) : Fate :=
  if type = ethtypeIp then .ipInput p
  else if type = ethtypeArp then .arpInput p
  else .freed p

/-- `ethernetif_input`: what it reads of the transfer, the length of the pbuf it got, and
what becomes of that by its type. -/
def ethernetifInput (pbufAlloc : Nat → Option (List Nat)) (behind buf : Nat → UInt8) (len : Nat) :
    Reception :=
  let reads := lowLevelInputReads pbufAlloc buf
  match lowLevelInput pbufAlloc buf len with
  | none => ⟨reads, none, .missing⟩
  | some p => ⟨reads, some p.totLen, fateOf p (ethType (payload p behind))⟩

/-- Dropped, and the pbuf freed if there was one. -/
inductive Fate.Dropped : Fate → Prop
  | missing : Dropped .missing
  | freed (p : PBuf) : Dropped (.freed p)

/-- A transfer of `len` bytes is not over-read: all reads of `buf` are in the
transfer, the type is read of frames with a whole header only, and a prefix that
does not match the transfer or is too short has the frame dropped. -/
structure NotOverRead (reception : Reception) (length len : Nat) : Prop where
  inside : ∀ index ∈ reception.reads, index < len
  header : ∀ totLen ∈ reception.typeRead, 14 ≤ totLen
  dropped : len - 2 < length ∨ length < 14 → reception.fate.Dropped

variable {pbufAlloc : Nat → Option (List Nat)}

/-- Without a pbuf only the prefix is read. -/
theorem ethernetifInput_missing (behind : Nat → UInt8) {buf : Nat → UInt8} (len : Nat)
    (full : pbufAlloc (lengthPrefix buf) = none) :
    ethernetifInput pbufAlloc behind buf len = ⟨[0, 1], none, .missing⟩ := by
  simp only [ethernetifInput, lowLevelInput, lowLevelInputReads, full, Option.map_none,
    Option.getD_none, List.append_nil]

/-- With a pbuf, as many bytes are read behind the prefix as it says, and the type as well. -/
theorem ethernetifInput_given (behind : Nat → UInt8) {buf : Nat → UInt8} (len : Nat)
    {lens : List Nat} (given : pbufAlloc (lengthPrefix buf) = some lens) :
    (ethernetifInput pbufAlloc behind buf len).reads = [0, 1] ++ List.range' 2 lens.sum ∧
      (ethernetifInput pbufAlloc behind buf len).typeRead = some (lengthPrefix buf) := by
  simp only [ethernetifInput, lowLevelInput, lowLevelInputReads, given, Option.map_some,
    Option.getD_some, chainReads_eq, and_self]

/-- A transfer is not over-read exactly when there is no pbuf for it, or its prefix
tells at least an Ethernet header and at most the bytes that came.

Proof: by whether there is a pbuf. Without one only the prefix is read. With one the bytes
read are the header and then the length that the prefix tells, all of them consecutive, so
their first and last decide. -/
theorem ethernetifInput_notOverRead (behind buf : Nat → UInt8) {len : Nat} (more : 1 < len)
    (sums : ∀ length lens, pbufAlloc length = some lens → lens.sum = length) :
    NotOverRead (ethernetifInput pbufAlloc behind buf len) (lengthPrefix buf) len ↔
      pbufAlloc (lengthPrefix buf) = none ∨
        14 ≤ lengthPrefix buf ∧ lengthPrefix buf ≤ len - 2 := by
  cases given : pbufAlloc (lengthPrefix buf) with
  | none =>
    have prefixOnly : NotOverRead (ethernetifInput pbufAlloc behind buf len) (lengthPrefix buf) len := by
      rw [ethernetifInput_missing behind len given]
      constructor
      · intro index read
        simp only [List.mem_cons, List.not_mem_nil, or_false] at read
        omega
      · intro totLen none
        exact absurd none (Option.not_mem_none totLen)
      · exact fun _ => .missing
    exact iff_of_true prefixOnly (Or.inl rfl)
  | some lens =>
    obtain ⟨reads, typeRead⟩ := ethernetifInput_given behind len given
    have length := sums _ _ given
    constructor
    · intro notOverRead
      right
      have header : 14 ≤ lengthPrefix buf := by
        apply notOverRead.header
        rw [typeRead, Option.mem_some_iff]
      have last : lengthPrefix buf + 1 < len := by
        apply notOverRead.inside
        rw [reads, length]
        apply List.mem_append_right
        rw [List.mem_range'_1]
        omega
      omega
    · rintro (missing | ⟨header, fits⟩)
      · exact absurd missing (by simp)
      · constructor
        · intro index read
          rw [reads, length, List.mem_append, List.mem_range'_1] at read
          simp only [List.mem_cons, List.not_mem_nil, or_false] at read
          omega
        · intro totLen read
          rw [typeRead, Option.mem_some_iff] at read
          omega
        · intro wrong
          omega

/-- A pool with one pbuf of each length. -/
theorem ethernetifInput_notOverRead_single :
    NotOverRead (ethernetifInput (fun length => some [length]) (fun _ => 0) (fun _ => 0) 60)
        (lengthPrefix fun _ => 0) 60 ↔
      (fun length => some [length] : Nat → Option (List Nat)) (lengthPrefix fun _ => 0) = none ∨
        14 ≤ lengthPrefix (fun _ => 0) ∧ lengthPrefix (fun _ => 0) ≤ 60 - 2 := by
  apply ethernetifInput_notOverRead _ _ (by decide)
  intro length lens given
  rw [← Option.some.inj given, List.sum_singleton]

/-- Two bytes that tell of a frame of 1535 bytes: these are copied, and passed on. -/
theorem ethernetifInput_overRead : ∃ buf : Nat → UInt8, lengthPrefix buf = 1535 ∧
    ¬ NotOverRead (ethernetifInput (fun length => some [length]) (fun _ => 0) buf 2)
      (lengthPrefix buf) 2 := by
  refine ⟨fun index => if index = 0 then 0xff else 5, by decide, ?_⟩
  intro notOverRead
  have behindPrefix : 2 ∈ (ethernetifInput (fun length => some [length]) (fun _ => 0)
      (fun index => if index = 0 then 0xff else 5) 2).reads := by
    have given : (fun length => some [length] : Nat → Option (List Nat))
        (lengthPrefix fun index => if index = 0 then 0xff else 5) = some [1535] := by decide
    rw [(ethernetifInput_given (fun _ => 0) 2 given).1]
    apply List.mem_append_right
    rw [List.mem_range'_1]
    decide
  exact absurd (notOverRead.inside 2 behindPrefix) (Nat.lt_irrefl 2)

end Ps2Eth.Ps2klsi
