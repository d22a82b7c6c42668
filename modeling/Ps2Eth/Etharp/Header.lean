import Ps2Eth.Lib.Layout
import Ps2Eth.Ps2klsi.UdpLog
import Mathlib.Data.Fintype.Card

/-!
# ARP packets

The packed records of `common/include/netif/etharp.h`, and how `common/lwip/etharp.c`
fills one: `etharp_query` fills a pbuf it has just allocated, and `etharp_arp_input`
turns a request into the reply where it is. An address is copied up to
`netif->hwaddr_len`, which is at most the size of the array.
-/

namespace Ps2Eth.Etharp

open CRecords

/-- `struct eth_addr`: the six bytes, with no regard to how many of them `hwaddr_len` says
are used. -/
abbrev EthAddr := Fin 6 → UInt8

/-- `struct eth_hdr`. The type is kept in network order, as it stands in the packet. -/
structure EthHdr where
  dest : EthAddr
  src : EthAddr
  type : UInt16
deriving DecidableEq

/-- `struct etharp_hdr`, an ARP packet with its Ethernet header. Words are kept in network
order. -/
structure EtharpHdr where
  ethhdr : EthHdr
  hwtype : UInt16
  proto : UInt16
  hwlenProtolen : UInt16
  opcode : UInt16
  shwaddr : EthAddr
  sipaddr : UInt32
  dhwaddr : EthAddr
  dipaddr : UInt32
deriving DecidableEq

/-- `struct ip_hdr`, of which the driver looks at the source address only. -/
structure IpHdr where
  vHlTos : UInt16
  len : UInt16
  id : UInt16
  offset : UInt16
  ttlProto : UInt16
  chksum : UInt16
  src : UInt32
  dest : UInt32
deriving DecidableEq

/-- `struct ethip_hdr`, an IP packet with its Ethernet header, of 34 bytes. -/
structure EthipHdr where
  eth : EthHdr
  ip : IpHdr
deriving DecidableEq

section Layouts

open Layout

/-- `struct eth_hdr`, packed: two addresses and the type. -/
def EthHdr.layout : Layout EthHdr :=
  (pair (array 6) (pair (array 6) u16)).congr
    { toFun := fun v => ⟨v.1, v.2.1, v.2.2⟩
      invFun := fun h => (h.dest, h.src, h.type)
      left_inv := fun _ => rfl
      right_inv := fun _ => rfl }

/-- `struct etharp_hdr`, packed, with the Ethernet header first. -/
def EtharpHdr.layout : Layout EtharpHdr :=
  (pair EthHdr.layout (pair u16 (pair u16 (pair u16 (pair u16 (pair (array 6) (pair u32
    (pair (array 6) u32)))))))).congr
    { toFun := fun v => ⟨v.1, v.2.1, v.2.2.1, v.2.2.2.1, v.2.2.2.2.1, v.2.2.2.2.2.1,
        v.2.2.2.2.2.2.1, v.2.2.2.2.2.2.2.1, v.2.2.2.2.2.2.2.2⟩
      invFun := fun h => (h.ethhdr, h.hwtype, h.proto, h.hwlenProtolen, h.opcode, h.shwaddr,
        h.sipaddr, h.dhwaddr, h.dipaddr)
      left_inv := fun _ => rfl
      right_inv := fun _ => rfl }

/-- `struct ip_hdr`, packed, without options. -/
def IpHdr.layout : Layout IpHdr :=
  (pair u16 (pair u16 (pair u16 (pair u16 (pair u16 (pair u16 (pair u32 u32))))))).congr
    { toFun := fun v => ⟨v.1, v.2.1, v.2.2.1, v.2.2.2.1, v.2.2.2.2.1, v.2.2.2.2.2.1,
        v.2.2.2.2.2.2.1, v.2.2.2.2.2.2.2⟩
      invFun := fun h => (h.vHlTos, h.len, h.id, h.offset, h.ttlProto, h.chksum, h.src, h.dest)
      left_inv := fun _ => rfl
      right_inv := fun _ => rfl }

/-- `struct ethip_hdr`: the two headers one after the other. -/
def EthipHdr.layout : Layout EthipHdr :=
  (pair EthHdr.layout IpHdr.layout).congr
    { toFun := fun v => ⟨v.1, v.2⟩
      invFun := fun h => (h.eth, h.ip)
      left_inv := fun _ => rfl
      right_inv := fun _ => rfl }

end Layouts

/-- `sizeof(struct etharp_hdr)` is 42, and an IP header ends at 34. -/
theorem layout_size :
    EthHdr.layout.size = 14 ∧ EtharpHdr.layout.size = 42 ∧ EthipHdr.layout.size = 34 := by decide

/-- `htons` of a `u16_t`, the function of the driver taken to words. -/
def htons (n : UInt16) : UInt16 := UInt16.ofNat (Ps2klsi.htons n.toNat)

/-- `ntohs`, which exchanges the bytes as `htons` does. -/
def ntohs (n : UInt16) : UInt16 := htons n

/-- `NETIF_MAX_HWADDR_LEN`, the size of the array that `hwaddr_len` counts in. -/
def netifMaxHwaddrLen : Nat := 6

/-- What the ARP module uses of a `struct netif`. -/
structure Netif where
  ipAddr : UInt32
  netmask : UInt32
  gw : UInt32
  hwaddrLen : Fin (netifMaxHwaddrLen + 1)
  hwaddr : EthAddr
deriving DecidableEq

/-- `HWTYPE_ETHERNET`, what the field `hwtype` holds of a request and of a reply. -/
def hwtypeEthernet : UInt16 := 1

/-- `ARP_REQUEST`, the opcode of a question. -/
def arpRequest : UInt16 := 1

/-- `ARP_REPLY`, the opcode of an answer. -/
def arpReply : UInt16 := 2

/-- `ETHTYPE_ARP`, the type of a frame with an ARP packet. -/
def ethtypeArp : UInt16 := 0x0806

/-- `ETHTYPE_IP`, the type of a frame with an IP packet, and of the addresses asked
for. -/
def ethtypeIp : UInt16 := 0x0800

/-- `ARPH_HWLEN`: the upper byte of the field, seen in the byte order of the processor. -/
def arphHwlen (hdr : EtharpHdr) : UInt16 := ntohs hdr.hwlenProtolen >>> 8

/-- `ARPH_PROTOLEN`: the lower byte of the same field. -/
def arphProtolen (hdr : EtharpHdr) : UInt16 := ntohs hdr.hwlenProtolen &&& 0xff

/-- `ARPH_HWLEN_SET`. The lower byte stays, and the upper one is replaced. -/
def arphHwlenSet (hdr : EtharpHdr) (len : UInt16) : EtharpHdr :=
  { hdr with hwlenProtolen := htons (arphProtolen hdr ||| len <<< 8) }

/-- `ARPH_PROTOLEN_SET`. The upper byte stays, and the lower one is added to it. -/
def arphProtolenSet (hdr : EtharpHdr) (len : UInt16) : EtharpHdr :=
  { hdr with hwlenProtolen := htons (len ||| arphHwlen hdr <<< 8) }

/-- The loop that copies the first `hwaddr_len` bytes of an address. -/
def copyAddr (hwaddrLen : Nat) (source target : EthAddr) : EthAddr :=
  fun k => if k < hwaddrLen then source k else target k

/-- What `etharp_query` makes of the header of the pbuf it allocated. -/
def requestFor (netif : Netif) (ipaddr : UInt32) (hdr : EtharpHdr) : EtharpHdr :=
  let hdr := { hdr with opcode := htons arpRequest }
  let hdr := { hdr with
    dhwaddr := copyAddr netif.hwaddrLen (fun _ => 0x00) hdr.dhwaddr
    shwaddr := copyAddr netif.hwaddrLen netif.hwaddr hdr.shwaddr }
  let hdr := { hdr with dipaddr := ipaddr }
  let hdr := { hdr with sipaddr := netif.ipAddr }
  let hdr := { hdr with hwtype := htons hwtypeEthernet }
  let hdr := arphHwlenSet hdr (UInt16.ofNat netif.hwaddrLen)
  let hdr := { hdr with proto := htons ethtypeIp }
  let hdr := arphProtolenSet hdr 4
  let hdr := { hdr with ethhdr := { hdr.ethhdr with
    dest := copyAddr netif.hwaddrLen (fun _ => 0xff) hdr.ethhdr.dest
    src := copyAddr netif.hwaddrLen netif.hwaddr hdr.ethhdr.src } }
  { hdr with ethhdr := { hdr.ethhdr with type := htons ethtypeArp } }

/-- What `etharp_arp_input` makes of the header of a request for the own address. In the
loop, byte `i` of `dhwaddr` is set before byte `i` of `shwaddr`. -/
def replyTo (netif : Netif) (ethaddr : EthAddr) (hdr : EtharpHdr) : EtharpHdr :=
  let hdr := { hdr with opcode := htons arpReply }
  let hdr := { hdr with dipaddr := hdr.sipaddr }
  let hdr := { hdr with sipaddr := netif.ipAddr }
  let hdr := { hdr with dhwaddr := copyAddr netif.hwaddrLen hdr.shwaddr hdr.dhwaddr }
  let hdr := { hdr with
    shwaddr := copyAddr netif.hwaddrLen ethaddr hdr.shwaddr
    ethhdr := { hdr.ethhdr with
      dest := copyAddr netif.hwaddrLen hdr.dhwaddr hdr.ethhdr.dest
      src := copyAddr netif.hwaddrLen ethaddr hdr.ethhdr.src } }
  let hdr := { hdr with hwtype := htons hwtypeEthernet }
  let hdr := arphHwlenSet hdr (UInt16.ofNat netif.hwaddrLen)
  let hdr := { hdr with proto := htons ethtypeIp }
  let hdr := arphProtolenSet hdr 4
  { hdr with ethhdr := { hdr.ethhdr with type := htons ethtypeArp } }

/-- The value with its two bytes exchanged. -/
theorem htons_toNat (n : UInt16) : (htons n).toNat = n.toNat % 256 * 256 + n.toNat / 256 := by
  have short := n.toNat_lt
  rw [htons, UInt16.toNat_ofNat', Ps2klsi.htons_eq short]
  omega

/-- The bytes of a half-word exchanged twice. -/
@[simp] theorem htons_htons (n : UInt16) : htons (htons n) = n := by
  have short := n.toNat_lt
  apply UInt16.toNat_inj.mp
  rw [htons_toNat, htons_toNat]
  omega

/-- The two lengths in their half-word. -/
theorem lengths_split {low high : UInt16} (shortLow : low < 256) (shortHigh : high < 256) :
    (low ||| high <<< 8) >>> 8 = high ∧ (low ||| high <<< 8) &&& 0xff = low := by
  have boundLow := UInt16.lt_iff_toNat_lt.mp shortLow
  have boundHigh := UInt16.lt_iff_toNat_lt.mp shortHigh
  have eight : (8 : UInt16).toNat % 16 = 8 := by decide
  have mask : (0xff : UInt16).toNat = 2 ^ 8 - 1 := by decide
  have limit : (256 : UInt16).toNat = 2 ^ 8 := by decide
  rw [limit] at boundLow boundHigh
  have sum : (low ||| high <<< 8).toNat = 2 ^ 8 * high.toNat + low.toNat := by
    rw [UInt16.toNat_or, UInt16.toNat_shiftLeft, eight, Nat.shiftLeft_eq, Nat.mod_eq_of_lt (by omega),
      Nat.or_comm, ← Nat.shiftLeft_eq, ← Nat.shiftLeft_add_eq_or_of_lt boundLow, Nat.shiftLeft_eq,
      Nat.mul_comm]
  constructor
  · apply UInt16.toNat_inj.mp
    rw [UInt16.toNat_shiftRight, eight, sum, Nat.shiftRight_eq_div_pow]
    omega
  · apply UInt16.toNat_inj.mp
    rw [UInt16.toNat_and, sum, mask, Nat.and_two_pow_sub_one_eq_mod]
    omega

/-- The length of a protocol address is read from one byte. -/
theorem protolen_short (hdr : EtharpHdr) : arphProtolen hdr < 256 := by
  apply UInt16.lt_iff_toNat_lt.mpr
  have mask : (0xff : UInt16).toNat = 2 ^ 8 - 1 := by decide
  have limit : (256 : UInt16).toNat = 2 ^ 8 := by decide
  rw [arphProtolen, UInt16.toNat_and, mask, Nat.and_two_pow_sub_one_eq_mod, limit]
  exact Nat.mod_lt _ (by decide)

/-- Each of the two lengths is set with the other one read back, so that nothing is left
of what the half-word held. -/
theorem lengths_set (hdr : EtharpHdr) {len : UInt16} (short : len < 256) :
    (arphProtolenSet (arphHwlenSet hdr len) 4).hwlenProtolen =
      htons ((4 : UInt16) ||| len <<< 8) := by
  have hwlen : arphHwlen (arphHwlenSet hdr len) = len := by
    rw [arphHwlen, arphHwlenSet, ntohs, htons_htons]
    exact (lengths_split (protolen_short hdr) short).1
  rw [arphProtolenSet, hwlen]

/-- The length of a hardware address fits in one byte, which is all the header has for it. -/
theorem hwaddrLen_short (netif : Netif) : UInt16.ofNat netif.hwaddrLen < 256 := by
  have bound : netif.hwaddrLen.val < 7 := netif.hwaddrLen.isLt
  apply UInt16.lt_iff_toNat_lt.mpr
  have limit : (256 : UInt16).toNat = 256 := by decide
  rw [UInt16.toNat_ofNat', limit]
  omega

/-- With six bytes the whole address is copied. -/
theorem copyAddr_full {hwaddrLen : Nat} (full : hwaddrLen = 6) (source target : EthAddr) :
    copyAddr hwaddrLen source target = source := by
  funext k
  rw [copyAddr, if_pos (full ▸ k.isLt)]

/-- A request with every byte given: from the interface to all, for `ipaddr`. -/
def wholeRequest (netif : Netif) (ipaddr : UInt32) : EtharpHdr where
  ethhdr := ⟨fun _ => 0xff, netif.hwaddr, htons ethtypeArp⟩
  hwtype := htons hwtypeEthernet
  proto := htons ethtypeIp
  hwlenProtolen := htons ((4 : UInt16) ||| (6 : UInt16) <<< 8)
  opcode := htons arpRequest
  shwaddr := netif.hwaddr
  sipaddr := netif.ipAddr
  dhwaddr := fun _ => 0x00
  dipaddr := ipaddr

/-- A reply with every byte given: from the interface to the host that asked. -/
def wholeReply (netif : Netif) (ethaddr : EthAddr) (asked : EtharpHdr) : EtharpHdr where
  ethhdr := ⟨asked.shwaddr, ethaddr, htons ethtypeArp⟩
  hwtype := htons hwtypeEthernet
  proto := htons ethtypeIp
  hwlenProtolen := htons ((4 : UInt16) ||| (6 : UInt16) <<< 8)
  opcode := htons arpReply
  shwaddr := ethaddr
  sipaddr := netif.ipAddr
  dhwaddr := asked.shwaddr
  dipaddr := asked.sipaddr

variable {netif : Netif}

/-- The two lengths in a request: 4 for the protocol, and `hwaddr_len`. -/
theorem requestFor_lengths (netif : Netif) (ipaddr : UInt32) (hdr : EtharpHdr) :
    (requestFor netif ipaddr hdr).hwlenProtolen =
      htons ((4 : UInt16) ||| UInt16.ofNat netif.hwaddrLen <<< 8) :=
  lengths_set _ (hwaddrLen_short netif)

/-- The two lengths in a reply, whatever the request had there. -/
theorem replyTo_lengths (netif : Netif) (ethaddr : EthAddr) (hdr : EtharpHdr) :
    (replyTo netif ethaddr hdr).hwlenProtolen =
      htons ((4 : UInt16) ||| UInt16.ofNat netif.hwaddrLen <<< 8) :=
  lengths_set _ (hwaddrLen_short netif)

/-- With a hardware address of six bytes, nothing of what the pbuf held is in the request. -/
theorem requestFor_full (full : netif.hwaddrLen.val = 6) (ipaddr : UInt32) (hdr : EtharpHdr) :
    requestFor netif ipaddr hdr = wholeRequest netif ipaddr := by
  have lengths := requestFor_lengths netif ipaddr hdr
  rw [full] at lengths
  have same : requestFor netif ipaddr hdr = { wholeRequest netif ipaddr with
      hwlenProtolen := (requestFor netif ipaddr hdr).hwlenProtolen } := by
    simp only [requestFor, arphProtolenSet, arphHwlenSet, wholeRequest, copyAddr_full full]
  rw [same, lengths]
  rfl

/-- With a hardware address of six bytes, a reply has from the request only who asked. -/
theorem replyTo_full (full : netif.hwaddrLen.val = 6) (ethaddr : EthAddr) (hdr : EtharpHdr) :
    replyTo netif ethaddr hdr = wholeReply netif ethaddr hdr := by
  have lengths := replyTo_lengths netif ethaddr hdr
  rw [full] at lengths
  have same : replyTo netif ethaddr hdr = { wholeReply netif ethaddr hdr with
      hwlenProtolen := (replyTo netif ethaddr hdr).hwlenProtolen } := by
    simp only [replyTo, arphProtolenSet, arphHwlenSet, wholeReply, copyAddr_full full]
  rw [same, lengths]
  rfl

/-- The bytes of a request, in the pbuf that `pbuf_alloc` returned. -/
def requestBytes (netif : Netif) (ipaddr : UInt32) (m : Memory) : Memory :=
  EtharpHdr.layout.write (requestFor netif ipaddr (EtharpHdr.layout.read m)) m

/-- The bytes of a reply, in the pbuf that the request came in. -/
def replyBytes (netif : Netif) (ethaddr : EthAddr) (m : Memory) : Memory :=
  EtharpHdr.layout.write (replyTo netif ethaddr (EtharpHdr.layout.read m)) m

/-- No byte of a request is left over from what the memory of the pbuf held before,
whatever that was, exactly when `hwaddr_len` is the size of an Ethernet address.

Proof: with six bytes every field of the header is written, whatever stood there. With
fewer the last byte of the destination is not, and two memories that differ in it give two
requests. -/
theorem request_discloses_nothing_iff (netif : Netif) (ipaddr : UInt32) :
    (∀ m m' : Memory, ∀ k < EtharpHdr.layout.size,
        requestBytes netif ipaddr m k = requestBytes netif ipaddr m' k) ↔
      netif.hwaddrLen.val = 6 := by
  constructor
  · intro same
    by_contra short
    have bound : netif.hwaddrLen.val < 7 := netif.hwaddrLen.isLt
    have sixth : (5 : Fin 6).val = 5 := rfl
    have further : ¬ (5 : Fin 6).val < netif.hwaddrLen.val := by omega
    -- The last byte of the destination is not written: it is the sixth of the pbuf.
    have kept (m : Memory) : requestBytes netif ipaddr m 5 = m 5 := by
      have last : requestBytes netif ipaddr m 5 =
          copyAddr netif.hwaddrLen (fun _ => 0xff) (EtharpHdr.layout.read m).ethhdr.dest 5 := rfl
      rw [last, copyAddr, if_neg further]
      rfl
    have differs := same (fun _ => 0) (fun _ => 1) 5 (by decide)
    rw [kept, kept] at differs
    exact absurd differs (by decide)
  · intro full m m' k inside
    rw [requestBytes, requestBytes, requestFor_full full, requestFor_full full,
      Layout.write_inside _ _ _ inside, Layout.write_inside _ _ _ inside]

end Ps2Eth.Etharp
