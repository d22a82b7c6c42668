import Ps2Eth.Etharp.Input
import Ps2Eth.Ps2klsi.Etharp

/-!
# The ARP table in the memory of the driver

`etharp_output` under `ethernetif_output` works on bytes: `arp_table` and the `netif` of
the driver are records in memory, and the frame goes to the adapter behind two bytes of
length. Where the memory holds a table and an interface, it does what `etharp_output`
does to these. So what is heard on the network decides which bytes go to the adapter.
-/

namespace Ps2Eth.Etharp

open CRecords
open Ps2klsi (arpTableSize arpEntry Image PBuf ArpResult)

/-- The value of an `enum etharp_state`. -/
def EtharpState.value : EtharpState → Nat
  | .empty => 0
  | .pending => 1
  | .stable => 2

/-- The memory holds this `arp_table`. -/
structure TableAt (image : Image) (m : Memory) (table : ArpTable) : Prop where
  ipaddr : ∀ i : Fin arpTableSize,
    m.load32 (arpEntry image i + Ps2klsi.EtharpEntry.offset .ipaddr) = (table i).ipaddr.toNat
  ethaddr : ∀ (i : Fin arpTableSize) (k : Fin 6),
    m (arpEntry image i + Ps2klsi.EtharpEntry.offset .ethaddr + k) = (table i).ethaddr k
  state : ∀ i : Fin arpTableSize,
    m.load32 (arpEntry image i + Ps2klsi.EtharpEntry.offset .state) = (table i).state.value
  ctime : ∀ i : Fin arpTableSize,
    m (arpEntry image i + Ps2klsi.EtharpEntry.offset .ctime) = (table i).ctime

/-- The memory holds this `struct netif`. -/
structure NetifAt (m : Memory) (address : Nat) (netif : Netif) : Prop where
  ipAddr : m.load32 (address + Ps2klsi.Netif.offset .ipAddr) = netif.ipAddr.toNat
  netmask : m.load32 (address + Ps2klsi.Netif.offset .netmask) = netif.netmask.toNat
  gw : m.load32 (address + Ps2klsi.Netif.offset .gw) = netif.gw.toNat
  hwaddrLen : (m (address + Ps2klsi.Netif.offset .hwaddrLen)).toNat = netif.hwaddrLen
  hwaddr : ∀ k : Fin 6, m (address + Ps2klsi.Netif.offset .hwaddr + k) = netif.hwaddr k

/-- The packet in a chain of pbufs. -/
def packetOf (q : PBuf) : Packet := ⟨q.totLen, fun k => q.bytes.getD k 0⟩

/-- The Ethernet header is in the first pbuf of the chain. -/
def HeaderRoom (q : PBuf) : Prop :=
  ∃ payload rest, q.segments = payload :: rest ∧ EthHdr.layout.size ≤ payload.length

/-- `pbuf_header` made room for the Ethernet header. -/
theorem headerRoom_of_headed {p q : PBuf} (headed : Ps2klsi.Headed p q) : HeaderRoom q := by
  obtain ⟨room, first, rest, length, -, segments⟩ := headed.room
  refine ⟨room ++ first, rest, segments, ?_⟩
  rw [layout_size.1, List.length_append, length]
  omega

/-- The packet that `etharp_output` returns. -/
def returnedOf : ArpResult → Option PBuf
  | .frame q => some q
  | _ => none

/-- The address that `etharp_query` is asked for. -/
def askedOf : ArpResult → Option Nat
  | .query ipaddr => some ipaddr
  | _ => none

/-- The address for which `etharp_output` over the records calls `etharp_query`: that of the
next hop, if no stable entry is for it. -/
def asksFor (netif : Netif) (room : Option Packet) (ipaddr : Option UInt32) (table : ArpTable) :
    Option UInt32 :=
  match room, destination netif ipaddr with
  | some _, .host hop => if (lookup table hop).isNone then some hop else none
  | _, _ => none

variable {image : Image} {m : Memory} {table : ArpTable} {address : Nat} {netif : Netif}

/-- Only the value of the stable state is the one that `etharp_output` looks for. -/
theorem value_eq_stable (state : EtharpState) :
    state.value = Ps2klsi.etharpStateStable ↔ state = .stable := by
  cases state with
  | empty => decide
  | pending => decide
  | stable => decide

/-- `etharp_init` sets the words with the states to zero, and nothing else. -/
theorem etharpInit_at (image : Image) (m : Memory) (index : Nat) :
    Ps2klsi.etharpInit image m index =
      if ∃ i < arpTableSize, arpEntry image i + 12 ≤ index ∧ index < arpEntry image i + 16 then 0
      else m index := by
  have cleared (count : Nat) : (List.range count).foldl
      (fun m i => m.store32 (image.arpTable + i * Ps2klsi.EtharpEntry.size +
        Ps2klsi.EtharpEntry.offset .state) Ps2klsi.etharpStateEmpty) m index =
      if ∃ i < count, arpEntry image i + 12 ≤ index ∧ index < arpEntry image i + 16 then 0
      else m index := by
    induction count with
    | zero =>
      rw [if_neg]
      · rfl
      · rintro ⟨i, earlier, -⟩
        exact Nat.not_lt_zero i earlier
    | succ count inductionHypothesis =>
      rw [List.range_succ, List.foldl_append, List.foldl_cons, List.foldl_nil]
      by_cases here : arpEntry image count + 12 ≤ index ∧ index < arpEntry image count + 16
      · rw [if_pos ⟨count, Nat.lt_succ_self count, here⟩]
        rw [Memory.store32, Ps2klsi.etharpStateEmpty, Nat.zero_shiftRight]
        exact if_pos here
      · have earlier : (∃ i < count + 1, arpEntry image i + 12 ≤ index ∧
            index < arpEntry image i + 16) ↔
            ∃ i < count, arpEntry image i + 12 ≤ index ∧ index < arpEntry image i + 16 := by
          constructor
          · rintro ⟨i, inside, at_⟩
            rcases Nat.lt_succ_iff_lt_or_eq.mp inside with before | rfl
            · exact ⟨i, before, at_⟩
            · exact absurd at_ here
          · rintro ⟨i, inside, at_⟩
            exact ⟨i, Nat.lt_succ_of_lt inside, at_⟩
        simp only [earlier]
        rw [← inductionHypothesis, Memory.store32]
        exact if_neg here
  exact cleared arpTableSize

/-- `etharp_init` in memory leaves the table that `etharp_init` over the records
leaves. -/
theorem TableAt.init (tableAt : TableAt image m table) :
    TableAt image (Ps2klsi.etharpInit image m) (etharpInit table) := by
  have kept (i : Fin arpTableSize) {index : Nat} (low : arpEntry image i ≤ index)
      (high : index < arpEntry image i + 20)
      (apart : index < arpEntry image i + 12 ∨ arpEntry image i + 16 ≤ index) :
      Ps2klsi.etharpInit image m index = m index := by
    rw [etharpInit_at, if_neg]
    rintro ⟨j, -, from_, below⟩
    simp only [arpEntry, Ps2klsi.EtharpEntry.size] at low high apart from_ below
    omega
  constructor
  · intro i
    rw [Memory.load32_congr, tableAt.ipaddr i]
    · rfl
    · intro index low high
      simp only [Ps2klsi.EtharpEntry.offset] at low high
      exact kept i (by omega) (by omega) (by omega)
  · intro i k
    rw [kept i (by omega) (by simp only [Ps2klsi.EtharpEntry.offset]; omega)
      (by simp only [Ps2klsi.EtharpEntry.offset]; omega), tableAt.ethaddr i k]
    rfl
  · intro i
    have zero (k : Nat) (inside : k < 4) :
        Ps2klsi.etharpInit image m (arpEntry image i + 12 + k) = 0 := by
      rw [etharpInit_at, if_pos ⟨i, i.isLt, by omega, by omega⟩]
    rw [Ps2klsi.EtharpEntry.offset, Memory.load32, zero 1 (by decide), zero 2 (by decide),
      zero 3 (by decide), ← Nat.add_zero (arpEntry image i + 12), zero 0 (by decide)]
    rfl
  · intro i
    rw [kept i (by omega) (by simp only [Ps2klsi.EtharpEntry.offset]; omega)
      (by simp only [Ps2klsi.EtharpEntry.offset]; omega), tableAt.ctime i]
    rfl

/-- The search of the table in memory. -/
theorem arpLookup_eq (tableAt : TableAt image m table) (ipaddr : UInt32) :
    Ps2klsi.arpLookup image m ipaddr.toNat = (lookup table ipaddr).map Fin.val := by
  have same (i : Fin arpTableSize) : Ps2klsi.stableFor image m ipaddr.toNat i =
      decide ((table i).state = .stable ∧ ipaddr = (table i).ipaddr) := by
    rw [Ps2klsi.stableFor, tableAt.state i, tableAt.ipaddr i, Bool.decide_and]
    simp only [value_eq_stable, UInt32.toNat_inj]
  rw [Ps2klsi.arpLookup, lookup, ← List.map_coe_finRange_eq_range, List.find?_map]
  congr 2
  funext i
  exact same i

/-- The bytes of an Ethernet header. -/
theorem ethHdr_bytes (hdr : EthHdr) :
    (∀ k : Fin 6, EthHdr.layout.bytes hdr k = hdr.dest k) ∧
      (∀ k : Fin 6, EthHdr.layout.bytes hdr (6 + k) = hdr.src k) ∧
      EthHdr.layout.bytes hdr 12 = UInt8.ofNat hdr.type.toNat ∧
      EthHdr.layout.bytes hdr 13 = UInt8.ofNat (hdr.type.toNat >>> 8) := by
  have array (value : EthAddr) (k : Fin 6) : (Layout.array 6).bytes value k = value k := dif_pos k.isLt
  have layout (k : Nat) : EthHdr.layout.bytes hdr k =
      if k < 6 then (Layout.array 6).bytes hdr.dest k
      else if k - 6 < 6 then (Layout.array 6).bytes hdr.src (k - 6)
      else Layout.u16.bytes hdr.type (k - 6 - 6) := rfl
  refine ⟨?_, ?_, ?_, ?_⟩
  · intro k
    rw [layout, if_pos k.isLt, array]
  · intro k
    rw [layout, if_neg (by omega), Nat.add_sub_cancel_left, if_pos k.isLt, array]
  · rw [layout, if_neg (by decide), if_neg (by decide)]
    exact congrArg UInt8.ofNat (Nat.div_one _)
  · rw [layout, if_neg (by decide), if_neg (by decide), Nat.shiftRight_eq_div_pow]
    rfl

/-- The bytes of the first pbuf with its header. -/
theorem header_at (dest src : Nat → UInt8) {payload : List UInt8} {count : Nat} (short : count < 7)
    (low high : UInt8) {k : Nat} (inside : k < payload.length) :
    (((Ps2klsi.fillHeader dest src payload count).set 12 low).set 13 high).getD k 0 =
      if k < 6 then if k < count then dest k else payload.getD k 0
      else if k < 12 then if k - 6 < count then src (k - 6) else payload.getD k 0
      else if k = 12 then low else if k = 13 then high else payload.getD k 0 := by
  have filled := Ps2klsi.fillHeader_at dest src payload count inside
  have length := Ps2klsi.fillHeader_length dest src payload count
  rw [List.getD_eq_getElem?_getD] at filled
  rw [List.getD_eq_getElem?_getD, List.getElem?_set, List.getElem?_set, List.length_set, length]
  by_cases last : 13 = k
  · rw [if_pos last, if_pos (last ▸ inside), Option.getD_some, if_neg (by omega), if_neg (by omega),
      if_neg (by omega), if_pos last.symm]
  · rw [if_neg last]
    by_cases first : 12 = k
    · rw [if_pos first, if_pos (first ▸ inside), Option.getD_some, if_neg (by omega),
        if_neg (by omega), if_pos first.symm]
    · rw [if_neg first, filled]
      split_ifs
      all_goals first | rfl | omega

/-- The bytes of a packet with its header. -/
theorem framed_at (netif : Netif) (ethaddr : EthAddr) (q : Packet) (k : Nat) :
    (framed netif ethaddr q).payload k =
      if inside : k < 6 then if k < netif.hwaddrLen.val then ethaddr ⟨k, inside⟩ else q.payload k
      else if inside : k - 6 < 6 then
        if k - 6 < netif.hwaddrLen.val then netif.hwaddr ⟨k - 6, inside⟩ else q.payload k
      else if k = 12 then 8 else if k = 13 then 0 else q.payload k := by
  have written : (framed netif ethaddr q).payload = EthHdr.layout.write
      { dest := copyAddr netif.hwaddrLen ethaddr q.eth.dest
        src := copyAddr netif.hwaddrLen netif.hwaddr q.eth.src
        type := htons ethtypeIp } q.payload := rfl
  obtain ⟨dest, src, low, high⟩ := ethHdr_bytes
    { dest := copyAddr netif.hwaddrLen ethaddr q.eth.dest
      src := copyAddr netif.hwaddrLen netif.hwaddr q.eth.src
      type := htons ethtypeIp }
  rw [written]
  by_cases inDest : k < 6
  · rw [Layout.write_inside _ _ _ (by rw [layout_size.1]; omega), dif_pos inDest]
    exact dest ⟨k, inDest⟩
  · rw [dif_neg inDest]
    by_cases inSrc : k - 6 < 6
    · obtain ⟨j, rfl⟩ : ∃ j, k = 6 + j := ⟨k - 6, by omega⟩
      simp only [Nat.add_sub_cancel_left] at inSrc ⊢
      rw [Layout.write_inside _ _ _ (by rw [layout_size.1]; omega), dif_pos inSrc]
      exact src ⟨j, inSrc⟩
    · rw [dif_neg inSrc]
      by_cases first : k = 12
      · rw [if_pos first, Layout.write_inside _ _ _ (by rw [layout_size.1]; omega), first, low]
        rfl
      · rw [if_neg first]
        by_cases last : k = 13
        · rw [if_pos last, Layout.write_inside _ _ _ (by rw [layout_size.1]; omega), last, high]
          exact (by decide : UInt8.ofNat ((htons ethtypeIp).toNat >>> 8) = 0)
        · rw [if_neg last, Layout.write_apart _ _ _ (by rw [layout_size.1]; omega)]

/-- The header that is written in memory is the one of the records. -/
theorem resolved_framed (netifAt : NetifAt m address netif) {q : PBuf} (room : HeaderRoom q)
    {dest : Nat → UInt8} {ethaddr : EthAddr} (found : ∀ k : Fin 6, dest k = ethaddr k) :
    ∃ sent, Ps2klsi.resolved m address dest q = .frame sent ∧
      packetOf sent = framed netif ethaddr (packetOf q) ∧ sent.bytes.length = q.bytes.length := by
  obtain ⟨payload, rest, segments, long⟩ := room
  have size : EthHdr.layout.size = 14 := layout_size.1
  rw [size] at long
  have short : netif.hwaddrLen.val < 7 := netif.hwaddrLen.isLt
  have source (k : Fin 6) : m (address + Ps2klsi.Netif.offset .hwaddr + k) = netif.hwaddr k :=
    netifAt.hwaddr k
  refine ⟨_, by rw [Ps2klsi.resolved, segments], ?_⟩
  have payloads : ∀ k, (packetOf { q with segments :=
      ((Ps2klsi.fillHeader dest (fun i => m (address + Ps2klsi.Netif.offset .hwaddr + i)) payload
        (m (address + Ps2klsi.Netif.offset .hwaddrLen)).toNat).set 12 8).set 13 0 :: rest }).payload k =
      (framed netif ethaddr (packetOf q)).payload k := by
    intro k
    rw [framed_at, netifAt.hwaddrLen]
    simp only [packetOf, PBuf.bytes, segments, List.flatten_cons]
    by_cases inside : k < payload.length
    · rw [List.getD_append _ _ _ _ (by
          rw [List.length_set, List.length_set, Ps2klsi.fillHeader_length]
          exact inside), List.getD_append _ _ _ _ inside, header_at _ _ short _ _ inside]
      by_cases inDest : k < 6
      · rw [if_pos inDest, dif_pos inDest, found ⟨k, inDest⟩]
      · rw [if_neg inDest, dif_neg inDest]
        by_cases inSrc : k - 6 < 6
        · have below : k < 12 := by omega
          rw [if_pos below, dif_pos inSrc, source ⟨k - 6, inSrc⟩]
        · have above : ¬ k < 12 := by omega
          rw [if_neg above, dif_neg inSrc]
    · have behind : payload.length ≤ k := Nat.le_of_not_lt inside
      rw [List.getD_append_right _ _ _ _ (by
          rw [List.length_set, List.length_set, Ps2klsi.fillHeader_length]
          exact behind), List.getD_append_right _ _ _ _ behind, List.length_set, List.length_set,
        Ps2klsi.fillHeader_length, dif_neg (by omega), dif_neg (by omega), if_neg (by omega),
        if_neg (by omega)]
  refine ⟨congrArg (Packet.mk q.totLen) (funext payloads), ?_⟩
  rw [PBuf.bytes, PBuf.bytes, segments, List.flatten_cons, List.flatten_cons, List.length_append,
    List.length_append, List.length_set, List.length_set, Ps2klsi.fillHeader_length]

/-- The first six bytes at an address are the address. -/
theorem ethAddrAt_inside {addr : List UInt8} (behind : Nat → UInt8) (six : addr.length = 6)
    (k : Fin 6) : Ps2klsi.ethAddrAt addr behind k = addr.getD k 0 := by
  have inside : k.val < addr.length := by omega
  rw [Ps2klsi.ethAddrAt, List.getD_eq_getElem _ _ inside, List.getD_eq_getElem _ _ inside]

/-- The choice of the next hop, in memory and over the records. -/
theorem nextHop_cases (netifAt : NetifAt m address netif) {ipaddr : UInt32}
    (single : (Ps2klsi.ipAddrIsany (some ipaddr.toNat) ||
      Ps2klsi.ipAddrIsbroadcast ipaddr.toNat netif.netmask.toNat) = false)
    (noGroup : Ps2klsi.ipAddrIsmulticast ipaddr.toNat = false) :
    (Ps2klsi.nextHop m address ipaddr.toNat = none ∧ destination netif (some ipaddr) = .noGateway) ∨
      ∃ hop : UInt32, Ps2klsi.nextHop m address ipaddr.toNat = some hop.toNat ∧
        destination netif (some ipaddr) = .host hop := by
  have gateway : netif.gw.toNat ≠ 0 ↔ netif.gw ≠ 0 := by
    rw [Ne, Ne, ← UInt32.toNat_inj]
    rfl
  rw [Ps2klsi.nextHop, netifAt.ipAddr, netifAt.netmask, netifAt.gw, ← ipAddrMaskcmp]
  simp only [destination, single, noGroup, Bool.false_eq_true, if_false, gateway]
  cases ipAddrMaskcmp ipaddr netif.ipAddr netif.netmask with
  | true => exact Or.inr ⟨ipaddr, rfl, rfl⟩
  | false =>
    by_cases routed : netif.gw ≠ 0
    · refine Or.inr ⟨netif.gw, ?_, ?_⟩
      · rw [if_neg (by decide), if_pos routed]
      · rw [if_pos rfl, if_pos routed]
    · refine Or.inl ⟨?_, ?_⟩
      · rw [if_neg (by decide), if_neg routed]
      · rw [if_pos rfl, if_neg routed]

/-- What is done in memory for a packet with this destination. -/
inductive Carries (m : Memory) (address : Nat) (table : ArpTable) (q : PBuf) :
    Destination → ArpResult → Prop where
  | hwaddr {dest : Nat → UInt8} {ethaddr : EthAddr} (same : ∀ k : Fin 6, dest k = ethaddr k) :
    Carries m address table q (.hwaddr ethaddr) (Ps2klsi.resolved m address dest q)
  | noGateway : Carries m address table q .noGateway .noGateway
  | missing {hop : UInt32} (missing : lookup table hop = none) :
    Carries m address table q (.host hop) (.query hop.toNat)
  | found {hop : UInt32} {i : Fin arpTableSize} {dest : Nat → UInt8}
    (found : lookup table hop = some i) (same : ∀ k : Fin 6, dest k = (table i).ethaddr k) :
    Carries m address table q (.host hop) (Ps2klsi.resolved m address dest q)

/-- `etharp_output` in memory decides by the same destination, and by the same search of
the table, as over the records. The cases are those of the source: broadcast, multicast,
the gateway or the host itself. -/
theorem etharpOutput_carries (tableAt : TableAt image m table) (netifAt : NetifAt m address netif)
    {pbufHeader : PBuf → Option PBuf} {p q : PBuf} (room : pbufHeader p = some q)
    (behind : Nat → UInt8) (ipaddr : Option UInt32) :
    Carries m address table q (destination netif ipaddr)
      (Ps2klsi.etharpOutput image pbufHeader behind m address (ipaddr.map UInt32.toNat) p) := by
  have broadcast (k : Fin 6) : Ps2klsi.ethAddrAt Ps2klsi.ethbroadcast behind k = 0xff := by
    rw [ethAddrAt_inside behind rfl]
    have all : ∀ k : Fin 6, Ps2klsi.ethbroadcast.getD k 0 = 0xff := by decide
    exact all k
  cases ipaddr with
  | none =>
    simp only [destination, Ps2klsi.etharpOutput, room, Option.map_none]
    exact .hwaddr broadcast
  | some ipaddr =>
    simp only [Ps2klsi.etharpOutput, room, Option.map_some, netifAt.netmask]
    cases all : Ps2klsi.ipAddrIsany (some ipaddr.toNat) ||
        Ps2klsi.ipAddrIsbroadcast ipaddr.toNat netif.netmask.toNat with
    | true =>
      simp only [destination, all, if_true]
      exact .hwaddr broadcast
    | false =>
      cases group : Ps2klsi.ipAddrIsmulticast ipaddr.toNat with
      | true =>
        simp only [destination, all, group, Bool.false_eq_true, if_false, if_true]
        exact .hwaddr (ethAddrAt_inside behind rfl)
      | false =>
        simp only [Bool.false_eq_true, if_false]
        rcases nextHop_cases netifAt all group with ⟨next, dest⟩ | ⟨hop, next, dest⟩
        · simp only [next, dest]
          exact .noGateway
        · simp only [next, dest, arpLookup_eq tableAt]
          cases found : lookup table hop with
          | none => exact .missing found
          | some i => exact .found found (tableAt.ethaddr i)

/-- What `etharp_output` over the records leaves to `etharp_query`, table and request, is
what a query for the address leaves that it asks for, and nothing where it asks for none. -/
theorem etharpOutput_query (netif : Netif) (room : Option Packet) (ipaddr : Option UInt32)
    (alloc : Option Memory) (table : ArpTable) :
    (etharpOutput netif room ipaddr alloc table).table =
        ((asksFor netif room ipaddr table).map fun hop =>
          (etharpQuery netif hop alloc table).1).getD table ∧
      (etharpOutput netif room ipaddr alloc table).request =
        (asksFor netif room ipaddr table).bind fun hop =>
          (etharpQuery netif hop alloc table).2.request := by
  cases room with
  | none => exact ⟨rfl, rfl⟩
  | some q =>
    simp only [etharpOutput, asksFor]
    cases destination netif ipaddr with
    | noGateway | hwaddr dest => exact ⟨rfl, rfl⟩
    | host hop =>
      cases found : lookup table hop with
      | some i => simp only [found]; exact ⟨rfl, rfl⟩
      | none => simp only [found]; exact ⟨rfl, rfl⟩

/-- `etharp_output` in memory returns the packet that it returns over the records, and calls
`etharp_query` for the same address or for none; over the records the table and the request
are then those of this query.

Proof: by the cases of `Carries`, the choice of the destination having been compared before.
Each case fixes what is returned and asked in memory, and the search of the table what is
returned and asked over the records. -/
theorem etharpOutput_refines (tableAt : TableAt image m table) (netifAt : NetifAt m address netif)
    {pbufHeader : PBuf → Option PBuf} (roomy : ∀ p q, pbufHeader p = some q → HeaderRoom q)
    (behind : Nat → UInt8) (ipaddr : Option UInt32) (p : PBuf) (alloc : Option Memory) :
    let result := Ps2klsi.etharpOutput image pbufHeader behind m address (ipaddr.map UInt32.toNat) p
    let room := (pbufHeader p).map packetOf
    let output := etharpOutput netif room ipaddr alloc table
    let asked := asksFor netif room ipaddr table
    (returnedOf result).map packetOf = output.returned ∧
      askedOf result = asked.map UInt32.toNat ∧
      output.table = (asked.map fun hop => (etharpQuery netif hop alloc table).1).getD table ∧
      output.request = asked.bind fun hop => (etharpQuery netif hop alloc table).2.request := by
  intro result room output asked
  have query := etharpOutput_query netif room ipaddr alloc table
  refine and_assoc.mp ⟨?_, query⟩
  simp only [result, room, output, asked]
  cases made : pbufHeader p with
  | none =>
    simp only [Ps2klsi.etharpOutput, made]
    exact ⟨rfl, rfl⟩
  | some q =>
    simp only [Option.map_some, etharpOutput, asksFor]
    have carries := etharpOutput_carries tableAt netifAt made behind ipaddr
    generalize Ps2klsi.etharpOutput image pbufHeader behind m address (ipaddr.map UInt32.toNat) p =
      result at carries ⊢
    generalize destination netif ipaddr = target at carries ⊢
    cases carries with
    | hwaddr same =>
      obtain ⟨sent, frame, packet, -⟩ := resolved_framed netifAt (roomy p q made) same
      rw [frame]
      exact ⟨congrArg some packet, rfl⟩
    | noGateway => exact ⟨rfl, rfl⟩
    | missing missing =>
      simp only [missing]
      exact ⟨rfl, rfl⟩
    | found found same =>
      obtain ⟨sent, frame, packet, -⟩ := resolved_framed netifAt (roomy p q made) same
      simp only [found, frame]
      exact ⟨congrArg some packet, rfl⟩

/-- A byte of the header of a packet, as it goes to the adapter. -/
theorem sentBytes_framed {q sent : PBuf} {ethaddr : EthAddr} (roomy : HeaderRoom q)
    (long : EthHdr.layout.size ≤ q.totLen) (packet : packetOf sent = framed netif ethaddr (packetOf q))
    (covers : sent.bytes.length = q.bytes.length) (outbuffer : Nat → UInt8) {k : Nat}
    (inside : k < EthHdr.layout.size) :
    (Ps2klsi.sentBytes outbuffer sent).getD (2 + k) 0 =
      (framed netif ethaddr (packetOf q)).payload k := by
  obtain ⟨payload, rest, segments, room⟩ := roomy
  have totLen : sent.totLen = q.totLen := congrArg Packet.totLen packet
  have inBytes : k < q.bytes.length := by
    rw [PBuf.bytes, segments, List.flatten_cons, List.length_append]
    omega
  rw [layout_size.1] at inside long
  rw [Ps2klsi.sentBytes_at outbuffer (by rw [Ps2klsi.outbufferSize]; omega) (by omega)
    (covers ▸ inBytes), ← packet]
  rfl

/-- What goes to the adapter. After any run, and with a table and an interface in memory
that agree with it, a packet for a single host is transmitted with the hardware address
in its header that was heard last of its next hop, less than 120 ticks ago, and then the
own one and the type of IP.

Proof: the packet in memory is the framed packet, by `etharpOutput_carries`, and its bytes
in the transfer are those behind the prefix. The entry that the address came from is
stable, so it is what was heard last. -/
theorem transfer_goes_to_heardLast {events : List Event} (uses : ∀ event ∈ events, event.Uses 6)
    (before : ArpTable) (tableAt : TableAt image m (tableAfter events before))
    (netifAt : NetifAt m address netif) (full : netif.hwaddrLen.val = 6)
    {pbufHeader : PBuf → Option PBuf} {p q : PBuf} (room : pbufHeader p = some q)
    (roomy : HeaderRoom q) (long : EthHdr.layout.size ≤ q.totLen) {ipaddr : Option UInt32}
    {hop : UInt32} (host : destination netif ipaddr = .host hop) {behind outbuffer : Nat → UInt8}
    {transfer : Ps2klsi.BulkOut} (sent : Ps2klsi.ethernetifOutput image pbufHeader behind m address
      outbuffer (ipaddr.map UInt32.toNat) p = some transfer) :
    ∃ ethaddr : EthAddr, ∃ age < arpMaxage.toNat,
      AgedMap.HeardLast (heardOf 6 events) hop (List.ofFn ethaddr) age ∧
        (∀ k : Fin 6, transfer.data.getD (2 + k) 0 = ethaddr k) ∧
        (∀ k : Fin 6, transfer.data.getD (8 + k) 0 = netif.hwaddr k) ∧
        transfer.data.getD 14 0 = 0x08 ∧ transfer.data.getD 15 0 = 0x00 := by
  have carries := etharpOutput_carries tableAt netifAt room behind ipaddr
  rw [Ps2klsi.ethernetifOutput] at sent
  generalize Ps2klsi.etharpOutput image pbufHeader behind m address (ipaddr.map UInt32.toNat) p =
    result at carries sent
  rw [host] at carries
  cases carries with
  | missing missing => cases sent
  | @found _ i dest found same =>
    obtain ⟨stable, rfl⟩ := lookup_some found
    obtain ⟨frame, isFrame, packet, covers⟩ := resolved_framed netifAt roomy same
    rw [isFrame] at sent
    have data : transfer.data = Ps2klsi.sentBytes outbuffer frame := by
      rw [← Option.some.inj sent]
      rfl
    have byte {k : Nat} (inside : k < EthHdr.layout.size) :=
      sentBytes_framed roomy long packet covers outbuffer inside
    have answered := answers_tableAfter uses before i stable
    have whole : known 6 (tableAfter events before i).ethaddr =
        List.ofFn (tableAfter events before i).ethaddr := by
      rw [known, List.take_of_length_le (by rw [List.length_ofFn])]
    rw [whole] at answered
    obtain ⟨last, young⟩ := (AgedMap.after_eq_some (by decide) _ _ _ _).mp answered
    rw [data]
    refine ⟨_, _, young, last, ?_, ?_, ?_, ?_⟩
    · intro k
      rw [byte (by rw [layout_size.1]; omega), framed_at, dif_pos k.isLt, full, if_pos k.isLt]
    · intro k
      have index : 8 + k.val = 2 + (6 + k) := by omega
      rw [index, byte (by rw [layout_size.1]; omega), framed_at, dif_neg (by omega), full]
      simp only [Nat.add_sub_cancel_left, k.isLt, dif_pos, if_pos]
    · exact (byte (by decide : 12 < EthHdr.layout.size)).trans (framed_at ..)
    · exact (byte (by decide : 13 < EthHdr.layout.size)).trans (framed_at ..)

section Instances

/-- Bytes in a memory that is zero elsewhere. -/
def storeBytes (m : Memory) (address : Nat) (bytes : List UInt8) : Memory :=
  fun index => if address ≤ index then bytes.getD (index - address) (m index) else m index

/-- The memory of the console after the reply of the gateway: the entry of the gateway,
and the `netif` at 0x4000. -/
def consoleMemory : Memory :=
  storeBytes (storeBytes (fun _ => 0) 0x2000
      [192, 168, 0, 1, 0x00, 0xd0, 0x59, 0xb5, 0xf0, 0x84, 0, 0, 2]) 0x4004
    ([192, 168, 0, 80, 255, 255, 255, 0, 192, 168, 0, 1] ++ List.replicate 20 0 ++
      [6, 0x00, 0x02, 0xe3, 0x01, 0x82, 0x72])

/-- An IP header of the console, without room for the Ethernet header. -/
def consoleChain : PBuf := ⟨20, [List.replicate 12 0 ++ [192, 168, 0, 80, 192, 168, 0, 1]]⟩

/-- There is room for the header in front of the packet. -/
theorem consoleChain_room : Ps2klsi.roomyHeader consoleChain =
    some ⟨34, [List.replicate 14 0 ++ (List.replicate 12 0 ++ [192, 168, 0, 80, 192, 168, 0, 1])]⟩ := rfl

/-- The transfer of this packet for the gateway. -/
def consoleTransfer : Ps2klsi.BulkOut :=
  (Ps2klsi.ethernetifOutput Ps2klsi.exampleImage Ps2klsi.roomyHeader (fun _ => 0) consoleMemory 0x4000
    (fun _ => 0) ((some gateway.ipAddr).map UInt32.toNat) consoleChain).getD ⟨0, 0, []⟩

/-- The packet is transmitted, since the gateway's entry is stable. -/
theorem consoleTransfer_sent : Ps2klsi.ethernetifOutput Ps2klsi.exampleImage Ps2klsi.roomyHeader
    (fun _ => 0) consoleMemory 0x4000 (fun _ => 0) ((some gateway.ipAddr).map UInt32.toNat)
      consoleChain = some consoleTransfer := rfl

/-- The memory holds the table after the reply of the gateway. -/
theorem consoleMemory_tableAt :
    TableAt Ps2klsi.exampleImage consoleMemory (tableAfter [.input console gatewayReply] unset) := by
  constructor
  · decide
  · decide
  · decide
  · decide

/-- It also holds the interface of the console. -/
theorem consoleMemory_netifAt : NetifAt consoleMemory 0x4000 console := by
  constructor
  · decide
  · decide
  · decide
  · decide
  · decide

/-- 192.168.0.7, of which the console has not heard. -/
def stranger : UInt32 := 0x0700a8c0

/-- The packet for the gateway is the one of the records; for a host that was not heard of
its address is asked for, and a request is sent. -/
theorem etharpOutput_refines_console :
    (returnedOf (Ps2klsi.etharpOutput Ps2klsi.exampleImage Ps2klsi.roomyHeader (fun _ => 0)
        consoleMemory 0x4000 ((some gateway.ipAddr).map UInt32.toNat) consoleChain)).map packetOf =
      (etharpOutput console ((Ps2klsi.roomyHeader consoleChain).map packetOf) (some gateway.ipAddr)
        none (tableAfter [.input console gatewayReply] unset)).returned ∧
    askedOf (Ps2klsi.etharpOutput Ps2klsi.exampleImage Ps2klsi.roomyHeader (fun _ => 0)
        consoleMemory 0x4000 ((some stranger).map UInt32.toNat) consoleChain) =
      some stranger.toNat ∧
    (etharpOutput console ((Ps2klsi.roomyHeader consoleChain).map packetOf) (some stranger)
        (some fun _ => 0) (tableAfter [.input console gatewayReply] unset)).request =
      (etharpQuery console stranger (some fun _ => 0)
        (tableAfter [.input console gatewayReply] unset)).2.request := by
  have roomy := fun p q room => headerRoom_of_headed (Ps2klsi.roomyHeader_grows p q room)
  have known := etharpOutput_refines consoleMemory_tableAt consoleMemory_netifAt roomy (fun _ => 0)
    (some gateway.ipAddr) consoleChain none
  have unknown := etharpOutput_refines consoleMemory_tableAt consoleMemory_netifAt roomy (fun _ => 0)
    (some stranger) consoleChain (some fun _ => 0)
  have asks : asksFor console ((Ps2klsi.roomyHeader consoleChain).map packetOf) (some stranger)
      (tableAfter [.input console gatewayReply] unset) = some stranger := by decide
  dsimp only at unknown
  rw [asks] at unknown
  exact ⟨known.1, unknown.2.1, unknown.2.2.2⟩

/-- A packet for the gateway is transmitted to its hardware address. -/
theorem transfer_goes_to_heardLast_console :
    ∃ ethaddr : EthAddr, ∃ age < arpMaxage.toNat,
      AgedMap.HeardLast (heardOf 6 [.input console gatewayReply]) gateway.ipAddr
        (List.ofFn ethaddr) age ∧
      (∀ k : Fin 6, consoleTransfer.data.getD (2 + k) 0 = ethaddr k) ∧
      (∀ k : Fin 6, consoleTransfer.data.getD (8 + k) 0 = console.hwaddr k) ∧
      consoleTransfer.data.getD 14 0 = 0x08 ∧ consoleTransfer.data.getD 15 0 = 0x00 :=
  transfer_goes_to_heardLast console_uses unset consoleMemory_tableAt consoleMemory_netifAt rfl
    consoleChain_room (headerRoom_of_headed (Ps2klsi.roomyHeader_grows _ _ consoleChain_room))
    (by decide) (by decide : destination console (some gateway.ipAddr) = .host gateway.ipAddr)
    consoleTransfer_sent

end Instances

end Ps2Eth.Etharp
