import Ps2Eth.Ps2klsi.Input
import Ps2Eth.Ps2klsi.LinkOutput

/-!
# The Ethernet header of outgoing packets

`etharp_output` of `common/lwip/etharp.c` under `ethernetif_output` of
`ps2klsi/ps2eth.c`. The two addresses of the header are written in one loop, which
runs up to `netif->hwaddr_len`. `klsi_init` does not set that member.
-/

namespace Ps2Eth.Ps2klsi

open CRecords

/-- `ETHARP_STATE_STABLE`, as the word with the state of an entry holds it. -/
def etharpStateStable : Nat := 2

/-- `htonl` on a little-endian machine. -/
def htonl (n : Nat) : Nat :=
  (n &&& 0xff) <<< 24 ||| (n &&& 0xff00) <<< 8 ||| (n &&& 0xff0000) >>> 8 |||
    (n &&& 0xff000000) >>> 24

/-- `ntohl`, which exchanges the bytes as `htonl` does. -/
def ntohl (n : Nat) : Nat := htonl n

/-- `htons` on a little-endian machine. -/
def htons (n : Nat) : Nat := (n &&& 0xff) <<< 8 ||| (n &&& 0xff00) >>> 8

/-- `~n` for a word of 32 bits. -/
def complement (n : Nat) : Nat := 0xffffffff ^^^ n

/-- `ip_addr_isany`, with `none` for `NULL`. -/
def ipAddrIsany (ipaddr : Option Nat) : Bool := ipaddr = none || ipaddr = some 0

/-- `ip_addr_isbroadcast`: all host bits are set, or the address is all ones or zero. -/
def ipAddrIsbroadcast (ipaddr mask : Nat) : Bool :=
  ipaddr &&& complement mask = 0xffffffff &&& complement mask || ipaddr = 0xffffffff || ipaddr = 0

/-- `ip_addr_ismulticast`: the first four bits, in network order, are those of class D. -/
def ipAddrIsmulticast (ipaddr : Nat) : Bool :=
  ipaddr &&& ntohl 0xf0000000 = ntohl 0xe0000000

/-- `ip_addr_maskcmp`: the two addresses are in one network. -/
def ipAddrMaskcmp (first second mask : Nat) : Bool := first &&& mask = second &&& mask

/-- `ip4_addr2`, `ip4_addr3` and `ip4_addr4`, with the shift. -/
def ip4Addr (shift ipaddr : Nat) : UInt8 := UInt8.ofNat (ntohl ipaddr >>> shift)

/-- The address with which the ARP table is asked, if there is one. -/
def nextHop (m : Memory) (netif ipaddr : Nat) : Option Nat :=
  if ipAddrMaskcmp ipaddr (m.load32 (netif + Netif.offset .ipAddr))
      (m.load32 (netif + Netif.offset .netmask)) then some ipaddr
  else if m.load32 (netif + Netif.offset .gw) ≠ 0 then some (m.load32 (netif + Netif.offset .gw))
  else none

/-- An entry of the ARP table. -/
def arpEntry (image : Image) (i : Nat) : Nat := image.arpTable + i * EtharpEntry.size

/-- Entry `i` is stable and for `ipaddr`. -/
def stableFor (image : Image) (m : Memory) (ipaddr i : Nat) : Bool :=
  m.load32 (arpEntry image i + EtharpEntry.offset .state) = etharpStateStable &&
    ipaddr = m.load32 (arpEntry image i + EtharpEntry.offset .ipaddr)

/-- The search of `etharp_output`: the first stable entry for the address. -/
def arpLookup (image : Image) (m : Memory) (ipaddr : Nat) : Option Nat :=
  (List.range arpTableSize).find? (stableFor image m ipaddr)

/-- The bytes at `dest`, and what the memory holds behind them. -/
def ethAddrAt (addr : List UInt8) (behind : Nat → UInt8) : Nat → UInt8 :=
  fun i => addr.getD i (behind i)

/-- `ethbroadcast`, six bytes of ones. -/
def ethbroadcast : List UInt8 := [0xff, 0xff, 0xff, 0xff, 0xff, 0xff]

/-- The Ethernet address of a multicast group: the fixed prefix and the low 23 bits of the
IP address. -/
def mcastaddr (ipaddr : Nat) : List UInt8 :=
  [0x01, 0x0, 0x5e, ip4Addr 16 ipaddr &&& 0x7f, ip4Addr 8 ipaddr, ip4Addr 0 ipaddr]

/-- The loop that writes `dest` and `src`, after `count` turns. What goes past the
pbuf's bytes is not in them. -/
def fillHeader (dest src : Nat → UInt8) (payload : List UInt8) : Nat → List UInt8
  | 0 => payload
  | i + 1 => ((fillHeader dest src payload i).set i (dest i)).set (6 + i) (src i)

/-- What `etharp_output` does with a packet. -/
inductive ArpResult where
  /-- `pbuf_header` had no room. -/
  | noRoom
  /-- The packet is for another network, and there is no gateway. -/
  | noGateway
  /-- `etharp_query` is asked for the address, and `NULL` returned. -/
  | query (ipaddr : Nat)
  /-- The packet with its header. -/
  | frame (q : PBuf)

/-- The header is written and the packet returned. -/
def resolved (m : Memory) (netif : Nat) (dest : Nat → UInt8) (q : PBuf) : ArpResult :=
  let src := fun i => m (netif + Netif.offset .hwaddr + i)
  let hwaddrLen := (m (netif + Netif.offset .hwaddrLen)).toNat
  match q.segments with
  | [] => .frame q
  | payload :: rest =>
    let header := fillHeader dest src payload hwaddrLen
    let type := htons ethtypeIp
    .frame { q with
      segments := (header.set 12 (UInt8.ofNat type)).set 13 (UInt8.ofNat (type >>> 8)) :: rest }

/-- `etharp_output`. `pbufHeader` makes room for the header. -/
def etharpOutput (image : Image) (pbufHeader : PBuf → Option PBuf) (behind : Nat → UInt8)
    (m : Memory) (netif : Nat) (ipaddr : Option Nat) (p : PBuf) : ArpResult :=
  match pbufHeader p with
  | none => .noRoom
  | some q =>
    match ipaddr with
    | none => resolved m netif (ethAddrAt ethbroadcast behind) q
    | some ip =>
      if ipAddrIsany ipaddr || ipAddrIsbroadcast ip (m.load32 (netif + Netif.offset .netmask)) then
        resolved m netif (ethAddrAt ethbroadcast behind) q
      else if ipAddrIsmulticast ip then
        resolved m netif (ethAddrAt (mcastaddr ip) behind) q
      else
        match nextHop m netif ip with
        | none => .noGateway
        | some hop =>
          match arpLookup image m hop with
          | none => .query hop
          | some i =>
            resolved m netif (fun k => m (arpEntry image i + EtharpEntry.offset .ethaddr + k)) q

/-- `ethernetif_output` sends the frame that `etharp_output` returns, through
`netif->state`. Without one it sends nothing. -/
def ethernetifOutput (image : Image) (pbufHeader : PBuf → Option PBuf) (behind : Nat → UInt8)
    (m : Memory) (netif : Nat) (outbuffer : Nat → UInt8) (ipaddr : Option Nat) (p : PBuf) :
    Option BulkOut :=
  match etharpOutput image pbufHeader behind m netif ipaddr p with
  | .frame q => some (stateOutput m netif outbuffer q)
  | _ => none

/-- What `pbuf_header` does where there is room: the first pbuf gets 14 more bytes at its
front, with what was there. -/
structure Headed (p q : PBuf) : Prop where
  totLen : q.totLen = p.totLen + 14
  room : ∃ room first rest, room.length = 14 ∧ p.segments = first :: rest ∧
    q.segments = (room ++ first) :: rest

/-- The destination is neither any address, nor a broadcast or multicast address. -/
structure Unicast (m : Memory) (netif ip : Nat) : Prop where
  some : ipAddrIsany (some ip) = false
  single : ipAddrIsbroadcast ip (m.load32 (netif + Netif.offset .netmask)) = false
  noGroup : ipAddrIsmulticast ip = false

/-- Filling in the header writes over bytes of the pbuf and adds none. -/
theorem fillHeader_length (dest src : Nat → UInt8) (payload : List UInt8) (count : Nat) :
    (fillHeader dest src payload count).length = payload.length := by
  induction count with
  | zero => rfl
  | succ count inductionHypothesis =>
    rw [fillHeader, List.length_set, List.length_set, inductionHypothesis]

/-- The loop sets the bytes below its bound from `dest`, and six further ones from `src`. -/
theorem fillHeader_at (dest src : Nat → UInt8) (payload : List UInt8) (count : Nat) {k : Nat}
    (inside : k < payload.length) :
    (fillHeader dest src payload count).getD k 0 =
      if k < count then dest k else if 6 ≤ k ∧ k - 6 < count then src (k - 6)
      else payload.getD k 0 := by
  induction count with
  | zero => rw [fillHeader, if_neg (by omega), if_neg (by omega)]
  | succ count inductionHypothesis =>
    rw [fillHeader, List.getD_eq_getElem?_getD, List.getElem?_set, List.getElem?_set,
      List.length_set, fillHeader_length]
    by_cases source : 6 + count = k
    · have first : ¬ k < count + 1 := by omega
      have second : 6 ≤ k ∧ k - 6 < count + 1 := by omega
      have here : k - 6 = count := by omega
      rw [if_pos source, if_pos (source ▸ inside), if_neg first, if_pos second, here, Option.getD_some]
    · rw [if_neg source]
      by_cases destination : count = k
      · rw [if_pos destination, if_pos (destination ▸ inside), if_pos (by omega), destination,
          Option.getD_some]
      · have first : k < count + 1 ↔ k < count := by omega
        have second : 6 ≤ k ∧ k - 6 < count + 1 ↔ 6 ≤ k ∧ k - 6 < count := by omega
        rw [if_neg destination, ← List.getD_eq_getElem?_getD, inductionHypothesis]
        simp only [first, second]

/-- The bytes of a header are where they belong: those that the loop leaves out are there
already, and those that it writes again come out the same. -/
structure HeaderReady (hwaddrLen : Nat) (room entry eaddr : Nat → UInt8) : Prop where
  dest : ∀ i < 6, hwaddrLen ≤ i → room i = entry i
  src : ∀ i < 6, hwaddrLen ≤ i → room (6 + i) = eaddr i
  again : ∀ i < 6, 6 + i < hwaddrLen → entry (6 + i) = eaddr i

/-- With an address length of six nothing is left out or written again. -/
theorem headerReady_six (room entry eaddr : Nat → UInt8) : HeaderReady 6 room entry eaddr := by
  constructor
  · intro i inside left
    omega
  · intro i inside left
    omega
  · intro i inside again
    omega

/-- A byte of the frame that is transmitted. -/
theorem sentBytes_at (outbuffer : Nat → UInt8) {q : PBuf} {k : Nat} (short : k + 2 < outbufferSize)
    (inTotLen : k < q.totLen) (inside : k < q.bytes.length) :
    (sentBytes outbuffer q).getD (2 + k) 0 = q.bytes.getD k 0 := by
  have copied : 2 ≤ 2 + k ∧ 2 + k < 2 + q.segments.flatten.length ∧ 2 + k < outbufferSize := by
    rw [PBuf.bytes] at inside
    omega
  rw [sentBytes, List.getD_eq_getElem?_getD, List.getElem?_map, List.getElem?_range (by omega),
    Option.map_some, Option.getD_some, fillOutbuffer, Function.update_of_ne (by omega),
    Function.update_of_ne (by omega), copyChain_at, if_pos copied, Nat.add_sub_cancel_left, PBuf.bytes]

variable {image : Image} {env : InitEnv} {before now : Memory} {netif : Nat}

/-- The two addresses of the frame that is sent for a packet with room for its header. -/
theorem resolved_header (setUp : SetUp image env before now netif) {p q : PBuf}
    (headed : Headed p q) (dest : Nat → UInt8) (outbuffer : Nat → UInt8) :
    ∃ sent, resolved now netif dest q = .frame sent ∧ ∀ k < 12,
      (sentBytes outbuffer sent).getD (2 + k) 0 =
        if k < (before (netif + Netif.offset .hwaddrLen)).toNat then dest k
        else if 6 ≤ k ∧ k - 6 < (before (netif + Netif.offset .hwaddrLen)).toNat then
          now (netif + Netif.offset .hwaddr + (k - 6))
        else q.bytes.getD k 0 := by
  obtain ⟨room, first, rest, length, _, segments⟩ := headed.room
  have total := headed.totLen
  refine ⟨_, by rw [resolved, segments], ?_⟩
  intro k inHeader
  have inside : k < (room ++ first).length := by
    rw [List.length_append, length]
    omega
  rw [sentBytes_at]
  · rw [PBuf.bytes, PBuf.bytes, segments, List.flatten_cons, List.flatten_cons,
      List.getD_append _ _ _ _ (by rw [List.length_set, List.length_set, fillHeader_length]; exact inside),
      List.getD_append _ _ _ _ inside, List.getD_eq_getElem?_getD,
      List.getElem?_set_ne (by omega), List.getElem?_set_ne (by omega),
      ← List.getD_eq_getElem?_getD, fillHeader_at _ _ _ _ inside, setUp.initialised.hwaddrLen]
  · rw [outbufferSize]
    omega
  · simp only
    omega
  · rw [PBuf.bytes, List.flatten_cons, List.length_append, List.length_set, List.length_set,
      fillHeader_length]
    omega

/-- A unicast packet whose next hop has a stable entry is sent with that entry. -/
theorem etharpOutput_unicast {pbufHeader : PBuf → Option PBuf} (behind : Nat → UInt8) {p q : PBuf}
    {ip hop i : Nat} (room : pbufHeader p = some q) (unicast : Unicast now netif ip)
    (next : nextHop now netif ip = some hop) (inTable : i < arpTableSize)
    (stable : stableFor image now hop i = true)
    (first : ∀ j < i, stableFor image now hop j = false) :
    etharpOutput image pbufHeader behind now netif (some ip) p =
      resolved now netif (fun k => now (arpEntry image i + EtharpEntry.offset .ethaddr + k)) q := by
  have found : arpLookup image now hop = some i := by
    rw [arpLookup, List.find?_range_eq_some]
    refine ⟨stable, List.mem_range.mpr inTable, ?_⟩
    intro j earlier
    rw [first j earlier, Bool.not_false]
  simp only [etharpOutput, room, unicast.some, unicast.single, unicast.noGroup, next, found,
    Bool.or_self, Bool.false_eq_true, if_false]

/-- The transmitted frame has the six bytes of the entry as destination, and the six of
`eaddr` as source. -/
def HeaderSent (image : Image) (env : InitEnv) (m : Memory) (i : Nat) (transfer : Option BulkOut) :
    Prop :=
  ∃ data, transfer.map BulkOut.data = some data ∧
    (∀ k < 6, data.getD (2 + k) 0 = m (arpEntry image i + EtharpEntry.offset .ethaddr + k)) ∧
    ∀ k < 6, data.getD (8 + k) 0 = env.eaddr k

/-- The two addresses that are sent, by `hwaddr_len` and by what the room of the header
held. -/
theorem ethernetifOutput_data {pbufHeader : PBuf → Option PBuf} (behind outbuffer : Nat → UInt8)
    (setUp : SetUp image env before now netif) {p q : PBuf} {ip hop i : Nat} (headed : Headed p q)
    (room : pbufHeader p = some q) (unicast : Unicast now netif ip)
    (next : nextHop now netif ip = some hop) (inTable : i < arpTableSize)
    (stable : stableFor image now hop i = true)
    (first : ∀ j < i, stableFor image now hop j = false) {hwaddrLen : Nat}
    (length : (before (netif + Netif.offset .hwaddrLen)).toNat = hwaddrLen) :
    ∃ data, (ethernetifOutput image pbufHeader behind now netif outbuffer (some ip) p).map
        BulkOut.data = some data ∧
      (∀ k < 6, data.getD (2 + k) 0 =
        if k < hwaddrLen then now (arpEntry image i + EtharpEntry.offset .ethaddr + k)
        else q.bytes.getD k 0) ∧
      ∀ k < 6, data.getD (8 + k) 0 =
        if 6 + k < hwaddrLen then now (arpEntry image i + EtharpEntry.offset .ethaddr + (6 + k))
        else if k < hwaddrLen then env.eaddr k else q.bytes.getD (6 + k) 0 := by
  obtain ⟨sent, frame, header⟩ := resolved_header setUp headed
    (fun k => now (arpEntry image i + EtharpEntry.offset .ethaddr + k)) outbuffer
  rw [length] at header
  refine ⟨sentBytes outbuffer sent, ?_, ?_, ?_⟩
  · rw [ethernetifOutput, etharpOutput_unicast behind room unicast next inTable stable first, frame,
      Option.map_some, stateOutput, lowLevelOutput]
  · intro k inAddress
    have noSource : ¬ (6 ≤ k ∧ k - 6 < hwaddrLen) := by omega
    rw [header k (by omega), if_neg noSource]
  · intro k inAddress
    have index : 8 + k = 2 + (6 + k) := by omega
    have source : 6 ≤ 6 + k := by omega
    rw [index, header (6 + k) (by omega)]
    simp only [source, true_and, Nat.add_sub_cancel_left, setUp.initialised.hwaddr k inAddress]

/-- What `klsi_init` leaves is enough exactly when the `hwaddr_len` that was there before
fits the bytes of the header.

Proof: every byte of the header in the transfer is either copied, below `hwaddr_len`, or
what stood in the pbuf. Comparing them with what they should be gives the conditions on
the bytes that stood there. -/
theorem ethernetifOutput_header {pbufHeader : PBuf → Option PBuf}
    (grows : ∀ p q, pbufHeader p = some q → Headed p q) (behind outbuffer : Nat → UInt8)
    (setUp : SetUp image env before now netif) {p q : PBuf} {ip hop i : Nat}
    (room : pbufHeader p = some q) (unicast : Unicast now netif ip)
    (next : nextHop now netif ip = some hop) (inTable : i < arpTableSize)
    (stable : stableFor image now hop i = true)
    (first : ∀ j < i, stableFor image now hop j = false) :
    HeaderSent image env now i
        (ethernetifOutput image pbufHeader behind now netif outbuffer (some ip) p) ↔
      HeaderReady (before (netif + Netif.offset .hwaddrLen)).toNat (fun k => q.bytes.getD k 0)
        (fun k => now (arpEntry image i + EtharpEntry.offset .ethaddr + k)) env.eaddr := by
  obtain ⟨data, transfer, destination, source⟩ := ethernetifOutput_data behind outbuffer setUp
    (grows p q room) room unicast next inTable stable first rfl
  constructor
  · rintro ⟨sent, sentData, destSent, srcSent⟩
    rw [transfer] at sentData
    obtain rfl := Option.some.inj sentData
    constructor
    · intro k inAddress left
      have sentByte := destSent k inAddress
      rwa [destination k inAddress, if_neg (Nat.not_lt.mpr left)] at sentByte
    · intro k inAddress left
      have sentByte := srcSent k inAddress
      rwa [source k inAddress, if_neg (by omega), if_neg (Nat.not_lt.mpr left)] at sentByte
    · intro k inAddress again
      have sentByte := srcSent k inAddress
      rwa [source k inAddress, if_pos again] at sentByte
  · intro ready
    refine ⟨data, transfer, ?_, ?_⟩
    · intro k inAddress
      rw [destination k inAddress]
      split
      · rfl
      · exact ready.dest k inAddress (by omega)
    · intro k inAddress
      rw [source k inAddress]
      split
      · exact ready.again k inAddress (by assumption)
      · split
        · rfl
        · exact ready.src k inAddress (by omega)

/-- A `pbuf_header` that always has room, which is zero. -/
def roomyHeader (p : PBuf) : Option PBuf :=
  match p.segments with
  | [] => none
  | first :: rest => some ⟨p.totLen + 14, (List.replicate 14 0 ++ first) :: rest⟩

/-- This `pbuf_header` does what is expected of one where there is room. -/
theorem roomyHeader_grows (p q : PBuf) (room : roomyHeader p = some q) : Headed p q := by
  cases segments : p.segments with
  | nil => simp only [roomyHeader, segments, reduceCtorEq] at room
  | cons first rest =>
    simp only [roomyHeader, segments, Option.some.injEq] at room
    subst room
    exact ⟨rfl, List.replicate 14 0, first, rest, List.length_replicate, segments, rfl⟩

/-- The driver later, with an entry for 192.168.0.1. -/
def exampleNow (before : Memory) : Memory :=
  (((klsiInit exampleImage exampleEnv before 0x4000).store32 0x2000 0x0100a8c0).store32 0x2004
    0x14131211).store32 0x200c etharpStateStable

/-- What has changed since `klsi_init` are bytes of the ARP table, so both records are as
it set them up. -/
theorem exampleNow_setUp (before : Memory) :
    SetUp exampleImage exampleEnv before (exampleNow before) 0x4000 := by
  have apart {index : Nat} (outside : index < 0x2000 ∨ 0x2010 ≤ index) :
      exampleNow before index = klsiInit exampleImage exampleEnv before 0x4000 index := by
    rw [exampleNow, Memory.store32_apart (by omega), Memory.store32_apart (by omega),
      Memory.store32_apart (by omega)]
  refine ⟨exampleImage_place, ?_, ?_⟩
  · rintro ⟨field, size, align⟩ - - i -
    exact apart (by omega)
  · intro member isMember _ i inside
    have short := Ethernetif.members_inside member isMember
    simp only [exampleImage, Ethernetif.size] at short ⊢
    exact apart (by omega)

/-- The first entry of the table is stable for 192.168.0.1. -/
theorem exampleNow_stable (before : Memory) :
    stableFor exampleImage (exampleNow before) 0x0100a8c0 0 = true := by
  have state : (exampleNow before).load32 0x200c = etharpStateStable :=
    Memory.load32_store32 _ _ (by decide)
  have ipaddr : (exampleNow before).load32 0x2000 = 0x0100a8c0 := by
    rw [exampleNow, Memory.load32_store32_apart (by decide), Memory.load32_store32_apart (by decide),
      Memory.load32_store32 _ _ (by decide)]
  have entry : arpEntry exampleImage 0 = 0x2000 := rfl
  simp only [stableFor, entry, EtharpEntry.offset, state, ipaddr, Nat.add_zero, Nat.reduceAdd,
    decide_true, Bool.and_self]

/-- Without a netmask, 192.168.0.1 is a unicast address of the local network. -/
theorem exampleNow_unicast (before : Memory)
    (noMask : before.load32 (0x4000 + Netif.offset .netmask) = 0) :
    Unicast (exampleNow before) 0x4000 0x0100a8c0 ∧
      nextHop (exampleNow before) 0x4000 0x0100a8c0 = some 0x0100a8c0 := by
  have mask : (exampleNow before).load32 (0x4000 + Netif.offset .netmask) = 0 := by
    rw [(exampleNow_setUp before).addressWord (by decide) (by decide), noMask]
  refine ⟨⟨by decide, ?_, by decide⟩, ?_⟩
  · rw [mask]
    decide
  · rw [nextHop, mask, ipAddrMaskcmp, Nat.and_zero, Nat.and_zero, decide_eq_true rfl, if_pos rfl]

/-- A record that had the length six. -/
theorem ethernetifOutput_header_six :
    HeaderSent exampleImage exampleEnv (exampleNow (Function.update exampleMemory 0x4024 6)) 0
      (ethernetifOutput exampleImage roomyHeader (fun _ => 0)
        (exampleNow (Function.update exampleMemory 0x4024 6)) 0x4000 (fun _ => 0) (some 0x0100a8c0)
        ⟨2, [[1, 2]]⟩) := by
  have unicast := exampleNow_unicast (Function.update exampleMemory 0x4024 6) (by decide)
  exact (ethernetifOutput_header roomyHeader_grows (fun _ => 0) (fun _ => 0) (exampleNow_setUp _) rfl
    unicast.1 unicast.2 (by decide) (exampleNow_stable _) (by decide)).mpr (headerReady_six _ _ _)

/-- A record that was zero: the header stays as it was, and has no source address. -/
theorem ethernetifOutput_header_zero : ∃ before now netif ip hop i p q,
    SetUp exampleImage exampleEnv before now netif ∧ roomyHeader p = some q ∧
      Unicast now netif ip ∧ nextHop now netif ip = some hop ∧ i < arpTableSize ∧
      stableFor exampleImage now hop i = true ∧
      (∀ j < i, stableFor exampleImage now hop j = false) ∧
      ¬ HeaderSent exampleImage exampleEnv now i
        (ethernetifOutput exampleImage roomyHeader (fun _ => 0) now netif (fun _ => 0) (some ip) p) := by
  have unicast := exampleNow_unicast exampleMemory (by decide)
  have setUp := exampleNow_setUp exampleMemory
  have first : ∀ j < 0, stableFor exampleImage (exampleNow exampleMemory) 0x0100a8c0 j = false := by
    intro j earlier
    omega
  have room : roomyHeader ⟨2, [[1, 2]]⟩ = some ⟨16, [List.replicate 14 0 ++ [1, 2]]⟩ := rfl
  refine ⟨exampleMemory, exampleNow exampleMemory, 0x4000, 0x0100a8c0, 0x0100a8c0, 0, ⟨2, [[1, 2]]⟩,
    _, setUp, room, unicast.1, unicast.2, by decide, exampleNow_stable _, first, ?_⟩
  have length : (exampleMemory (0x4000 + Netif.offset .hwaddrLen)).toNat = 0 := by decide
  obtain ⟨data, transfer, -, source⟩ := ethernetifOutput_data (fun _ => 0) (fun _ => 0) setUp
    (roomyHeader_grows _ _ room) room unicast.1 unicast.2 (by decide) (exampleNow_stable _) first
    length
  rintro ⟨sent, sentData, -, srcSent⟩
  rw [transfer] at sentData
  obtain rfl := Option.some.inj sentData
  have sentByte := srcSent 0 (by decide)
  rw [source 0 (by decide)] at sentByte
  exact absurd sentByte (by decide)

end Ps2Eth.Ps2klsi
