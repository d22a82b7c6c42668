import Ps2Eth.Lib.CText
import Ps2Eth.Lib.OnesComplement
import Ps2Eth.Ps2klsi.Etharp

/-!
# The log packets of the ps2klsi driver

`udp_log` of `ps2klsi/driver.c` builds an IP packet in `udp_buffer` by itself. Both
checksums are sums of words with the low byte first, folded and complemented. The sum
over the UDP part can fold to `0xffff`, whose complement says that there is no checksum.
-/

namespace Ps2Eth.Ps2klsi

open CRecords CText OnesComplement

/-- A word of 16 bits in memory. -/
def bytes16 (word : UInt16) : List UInt8 := [word.toUInt8, (word >>> 8).toUInt8]

/-- A word of 32 bits in memory. -/
def bytes32 (word : UInt32) : List UInt8 :=
  [word.toUInt8, (word >>> 8).toUInt8, (word >>> 16).toUInt8, (word >>> 24).toUInt8]

/-- `sizeof(udp_buffer)`, the headers and the data of a log packet. -/
def udpBufferSize : Nat := 1024

/-- `struct full_udp` over `udp_buffer`. `data` is the buffer from that member on. -/
structure FullUdp where
  usbLen1 : UInt8
  usbLen2 : UInt8
  ethDst : Vector UInt8 6
  ethSrc : Vector UInt8 6
  ethType : UInt16
  ipVerHlen : UInt8
  ipServices : UInt8
  ipLength : UInt16
  ipId : UInt16
  ipFlags : UInt8
  ipFragOffset : UInt8
  ipTtl : UInt8
  ipProtocol : UInt8
  ipChksum : UInt16
  ipSrc : UInt32
  ipDst : UInt32
  udpSrcPort : UInt16
  udpDstPort : UInt16
  udpLen : UInt16
  udpChksum : UInt16
  data : List UInt8

namespace FullUdp

/-- What stands before the IP header in memory: the length for the adapter, low byte
first, and the Ethernet header. -/
def frameHeader (hdrs : FullUdp) : List UInt8 :=
  [hdrs.usbLen1, hdrs.usbLen2] ++ hdrs.ethDst.toList ++ hdrs.ethSrc.toList ++ bytes16 hdrs.ethType

/-- The IP header in memory, in the order of its fields. -/
def ipHeader (hdrs : FullUdp) : List UInt8 :=
  [hdrs.ipVerHlen, hdrs.ipServices] ++ bytes16 hdrs.ipLength ++ bytes16 hdrs.ipId ++
    [hdrs.ipFlags, hdrs.ipFragOffset, hdrs.ipTtl, hdrs.ipProtocol] ++ bytes16 hdrs.ipChksum ++
    bytes32 hdrs.ipSrc ++ bytes32 hdrs.ipDst

/-- The UDP header in memory. -/
def udpHeader (hdrs : FullUdp) : List UInt8 :=
  bytes16 hdrs.udpSrcPort ++ bytes16 hdrs.udpDstPort ++ bytes16 hdrs.udpLen ++
    bytes16 hdrs.udpChksum

/-- `ip_chksum` is written, every other byte of the headers stays. -/
def setIpChksum (hdrs : FullUdp) (sum : UInt16) : FullUdp := { hdrs with ipChksum := sum }

/-- `udp_chksum` is written, every other byte of the headers stays. -/
def setUdpChksum (hdrs : FullUdp) (sum : UInt16) : FullUdp := { hdrs with udpChksum := sum }

/-- What is at `&(hdrs->udp_src_port)`: the UDP header and the data. -/
def atUdpSrcPort (hdrs : FullUdp) : List UInt8 := hdrs.udpHeader ++ hdrs.data

/-- What is at `&(hdrs->ip_ver_hlen)`: the IP header and all behind it. -/
def atIpVerHlen (hdrs : FullUdp) : List UInt8 := hdrs.ipHeader ++ hdrs.atUdpSrcPort

/-- The bytes of `udp_buffer` up to the data, in their order. -/
def bytes (hdrs : FullUdp) : List UInt8 := hdrs.frameHeader ++ hdrs.atIpVerHlen

end FullUdp

/-- The Ethernet address that every text is sent to. -/
def ethDst : Vector UInt8 6 := ⟨#[0x00, 0xD0, 0x59, 0xB5, 0xF0, 0x84], rfl⟩

/-- The Ethernet address that it is sent from. -/
def ethSrc : Vector UInt8 6 := ⟨#[0x00, 0x02, 0xe3, 0x01, 0x82, 0x72], rfl⟩

/-- `IP4_ADDR`: four numbers put together in network order. -/
def ip4AddrOf (a b c d : Nat) : UInt32 :=
  UInt32.ofNat (htonl ((a &&& 0xff) <<< 24 ||| (b &&& 0xff) <<< 16 ||| (c &&& 0xff) <<< 8 |||
    (d &&& 0xff)))

/-- The loop of `chksum` and what follows it, with the sum so far. -/
def chksumFrom (acc : Nat) : List UInt8 → Nat → Nat
  | low :: high :: ptr, len + 2 =>
    chksumFrom ((acc + (low.toNat + 2 ^ 8 * high.toNat)) % 2 ^ 32) ptr len
  | last :: _, 1 => (acc + htons ((last.toNat &&& 0xff) <<< 8)) % 2 ^ 32
  | _, _ => acc

/-- `chksum`, with the bytes at `data`. -/
def chksum (data : List UInt8) (len : Nat) : Nat := chksumFrom 0 data len

/-- `while ( chk_sum >> 16 )`. -/
def foldCarries (chkSum : Nat) : Nat :=
  if chkSum >>> 16 = 0 then chkSum
  else foldCarries ((chkSum &&& 0x0000ffff) + chkSum >>> 16)
termination_by chkSum
decreasing_by
  rename_i more
  rw [Nat.shiftRight_eq_div_pow] at more ⊢
  rw [Nat.and_two_pow_sub_one_eq_mod chkSum 16]
  omega

/-- The member that a sum is stored in. -/
def storedSum (chkSum : Nat) : UInt16 :=
  UInt16.ofNat (complement (foldCarries chkSum &&& 0x0000ffff))

/-- `strcpy`: the characters and the zero behind them, and then what was there. -/
def strcpy (dest : List UInt8) (src : CString) : List UInt8 :=
  src.chars ++ 0 :: dest.drop (src.chars.length + 1)

/-- The members that are written before the sum over the IP header. -/
def addressed (hdrs : FullUdp) (pktLen : Nat) : FullUdp :=
  { hdrs with
    usbLen1 := UInt8.ofNat (pktLen + 14)
    usbLen2 := UInt8.ofNat ((pktLen + 14) >>> 8)
    ethDst := ethDst
    ethSrc := ethSrc
    ethType := UInt16.ofNat (htons 0x800)
    ipVerHlen := 0x45
    ipServices := 0x00
    ipLength := UInt16.ofNat (htons pktLen)
    ipId := 0x0000
    ipFlags := 0x00
    ipFragOffset := 0x0000
    ipTtl := 0x80
    ipProtocol := 0x11
    ipChksum := 0x0000
    ipSrc := ip4AddrOf 172 16 10 254
    ipDst := ip4AddrOf 172 16 10 40 }

/-- The members that are written before the sum over the UDP part. -/
def udpWritten (hdrs : FullUdp) (logLen : Nat) (log : CString) : FullUdp :=
  { hdrs with
    udpSrcPort := UInt16.ofNat (htons 0x0456)
    udpDstPort := UInt16.ofNat (htons 1110)
    udpLen := UInt16.ofNat (htons (logLen + 8))
    udpChksum := 0x0000
    data := strcpy hdrs.data log }

/-- The sum over the UDP part, and over the pseudo-header. -/
def udpChkSum (hdrs : FullUdp) (logLen : Nat) : Nat :=
  (chksum hdrs.atUdpSrcPort ((logLen + 8) % 2 ^ 16) +
    htons ((htonl hdrs.ipDst.toNat &&& 0xffff0000) >>> 16) +
    htons (htonl hdrs.ipDst.toNat &&& 0x0000ffff) +
    htons ((htonl hdrs.ipSrc.toNat &&& 0xffff0000) >>> 16) +
    htons (htonl hdrs.ipSrc.toNat &&& 0x0000ffff) +
    htons 17 + htons (8 + logLen)) % 2 ^ 32

/-- The packet that `udp_log` leaves in `udp_buffer`. -/
def logPacket (hdrs : FullUdp) (logLen pktLen : Nat) (log : CString) : FullUdp :=
  let addressed := addressed hdrs pktLen
  let ipDone := addressed.setIpChksum (storedSum (chksum addressed.atIpVerHlen 20))
  let written := udpWritten ipDone logLen log
  written.setUdpChksum (storedSum (udpChkSum written logLen))

/-- `udp_log`. What it had in `udp_buffer` is `hdrs`. -/
def udpLog (image : Image) (m : Memory) (udpLogInit : UInt8) (hdrs : FullUdp) (log : CString) :
    Option BulkOut :=
  let logLen := log.chars.length % 2 ^ 16
  let pktLen := (logLen + 20 + 8) % 2 ^ 16
  if udpLogInit = 0 then none
  else
    some {
      pipe := m.load32 (image.klsiEtherif + Ethernetif.offset .hout)
      sema := m.load32 (image.klsiEtherif + Ethernetif.offset .hsemout)
      data := (logPacket hdrs logLen pktLen log).bytes.take ((pktLen + (14 + 2)) % 2 ^ 16) }

/-- The pseudo-header of a packet: its addresses, the protocol and the UDP length. -/
def pseudoHeader (sent : List UInt8) : List UInt8 :=
  (sent.drop 28).take 8 ++ [0, 17] ++ (sent.drop 40).take 2

/-- A number that a packet has at an offset in network order. -/
def networkAt (sent : List UInt8) (offset : Nat) : Nat :=
  2 ^ 8 * (sent.getD offset 0).toNat + (sent.getD (offset + 1) 0).toNat

/-- A receiver accepts what was sent for a text. -/
structure Accepted (text sent : List UInt8) : Prop where
  size : sent.length = 44 + text.length
  usbLength : (sent.getD 0 0).toNat + 2 ^ 8 * (sent.getD 1 0).toNat = 42 + text.length
  ipLength : networkAt sent 18 = 28 + text.length
  udpLength : networkAt sent 40 = 8 + text.length
  text : sent.drop 44 = text
  ipSum : OnesComplement.sum (words ((sent.drop 16).take 20)) = 0xffff
  udpSum : OnesComplement.sum (words (pseudoHeader sent ++ sent.drop 36)) = 0xffff
  chksum : networkAt sent 42 ≠ 0

/-- What the UDP checksum covers: the addresses, the protocol, the length, the ports, the
length again, and the text. -/
def coveredSum (text : List UInt8) : Nat :=
  0xac10 + 0x0afe + 0xac10 + 0x0a28 + 17 + (8 + text.length) + 1110 + 1110 + (8 + text.length) +
    (words text).sum

/-- `htons` exchanges the two bytes of a number that has no more. -/
theorem htons_eq {n : Nat} (short : n < 2 ^ 16) : htons n = n % 2 ^ 8 * 2 ^ 8 + n / 2 ^ 8 := by
  have low : n &&& 0xff = n % 2 ^ 8 := Nat.and_two_pow_sub_one_eq_mod n 8
  have high : (n &&& 0xff00) >>> 8 = n / 2 ^ 8 := by
    have mask : 0xff00 >>> 8 = 2 ^ 8 - 1 := by decide
    rw [Nat.shiftRight_and_distrib, Nat.shiftRight_eq_div_pow, mask, Nat.and_two_pow_sub_one_eq_mod]
    omega
  rw [htons, low, high, ← Nat.shiftLeft_add_eq_or_of_lt (by omega), Nat.shiftLeft_eq]

/-- No bytes add nothing to the sum. -/
theorem chksumFrom_zero (acc : Nat) (data : List UInt8) : chksumFrom acc data 0 = acc := by
  rw [chksumFrom]
  · intro low high ptr len _ more
    exact absurd more (by omega)
  · intro last rest _ one
    exact absurd one (by decide)

/-- The loop adds the words of the bytes, with the low byte first. -/
theorem chksumFrom_eq (acc : Nat) (data : List UInt8) (len : Nat) (inside : len ≤ data.length)
    (short : acc < 2 ^ 32) :
    chksumFrom acc data len = (acc + (swapped (data.take len)).sum) % 2 ^ 32 := by
  induction acc, data, len using chksumFrom.induct with
  | case1 acc low high ptr len inductionHypothesis =>
    rw [List.length_cons, List.length_cons] at inside
    rw [chksumFrom, inductionHypothesis (by omega) (Nat.mod_lt _ (by decide)), swapped,
      List.take_succ_cons, List.take_succ_cons, pairs, List.sum_cons]
    omega
  | case2 acc last rest =>
    have byte := last.toNat_lt
    have low : last.toNat &&& 0xff = last.toNat :=
      Nat.and_two_pow_sub_one_of_lt_two_pow (n := 8) byte
    rw [chksumFrom, low, Nat.shiftLeft_eq, htons_eq (by omega), List.take_succ_cons, List.take_zero,
      swapped, pairs, List.sum_singleton, UInt8.toNat_zero]
    omega
  | case3 len acc data more one =>
    have none : len = 0 := by
      by_contra some
      cases data with
      | nil => exact some (Nat.le_zero.mp inside)
      | cons last rest =>
        by_cases odd : len = 1
        · exact one last rest rfl odd
        · cases rest with
          | nil =>
            rw [List.length_singleton] at inside
            omega
          | cons high ptr => exact more last high ptr (len - 2) rfl (by omega)
    rw [none, chksumFrom_zero, List.take_zero, swapped, pairs, List.sum_nil, Nat.add_zero,
      Nat.mod_eq_of_lt short]

/-- The loop over the carries leaves the residue. -/
theorem foldCarries_eq (chkSum : Nat) : foldCarries chkSum = residue chkSum := by
  apply residue_of_loop
  · intro n short
    rw [foldCarries, if_pos (by rw [Nat.shiftRight_eq_div_pow]; omega)]
  · intro n long
    rw [foldCarries, if_neg (by rw [Nat.shiftRight_eq_div_pow]; omega),
      Nat.and_two_pow_sub_one_eq_mod n 16, Nat.shiftRight_eq_div_pow]

/-- What is stored is the ones' complement of the residue. -/
theorem storedSum_toNat (chkSum : Nat) : (storedSum chkSum).toNat = 0xffff - residue chkSum := by
  have bound := residue_le chkSum
  have word : residue chkSum &&& 0xffff = residue chkSum :=
    Nat.and_two_pow_sub_one_of_lt_two_pow (n := 16) (by omega)
  rw [storedSum, foldCarries_eq, word, complement, UInt16.toNat_ofNat', Nat.xor_mod_two_pow,
    Nat.mod_eq_of_lt (a := residue chkSum) (by omega)]
  have inverted := BitVec.toNat_not (x := BitVec.ofNat 16 (residue chkSum))
  rw [BitVec.not_def, BitVec.toNat_xor, BitVec.toNat_allOnes, BitVec.toNat_ofNat,
    Nat.mod_eq_of_lt (by omega)] at inverted
  exact inverted

/-- `chksum` is the sum, if it fits in a word. -/
theorem chksum_eq {data : List UInt8} {len : Nat} (inside : len ≤ data.length)
    (short : len < 2 ^ 16) : chksum data len = (swapped (data.take len)).sum := by
  have bound := swapped_sum_le (data.take len)
  rw [List.length_take_of_le inside] at bound
  rw [chksum, chksumFrom_eq 0 data len inside (by decide), Nat.zero_add,
    Nat.mod_eq_of_lt (by omega)]

/-- A shift of a word by eight bits is one by eight bits. -/
theorem eight_mod : (8 : UInt16).toNat % 16 = 8 := by decide

/-- A word is told by its two bytes. -/
theorem bytes16_sum (word : UInt16) :
    word.toUInt8.toNat + 2 ^ 8 * (word >>> 8).toUInt8.toNat = word.toNat := by
  have bound := word.toNat_lt
  rw [UInt16.toNat_toUInt8, UInt16.toNat_toUInt8, UInt16.toNat_shiftRight,
    Nat.shiftRight_eq_div_pow, eight_mod]
  omega

/-- A word that is put into a place that was zero is added to the sum. -/
theorem swapped_filled {front : List UInt8} (even : front.length % 2 = 0) (word : UInt16)
    (back : List UInt8) :
    (swapped (front ++ (bytes16 word ++ back))).sum =
      (swapped (front ++ (bytes16 0 ++ back))).sum + word.toNat := by
  have here : ∀ word, (swapped (bytes16 word ++ back)).sum = word.toNat + (swapped back).sum := by
    intro word
    rw [swapped, bytes16, List.cons_append, List.cons_append, List.nil_append, pairs, List.sum_cons,
      bytes16_sum]
  rw [swapped_sum_append even, swapped_sum_append even, here, here, UInt16.toNat_zero]
  omega

/-- The sum is full after the complement of what it was is put into it. -/
theorem sum_stored {front : List UInt8} (even : front.length % 2 = 0) (back : List UInt8) :
    OnesComplement.sum (words (front ++
      (bytes16 (storedSum (swapped (front ++ (bytes16 0 ++ back))).sum) ++ back))) = 0xffff := by
  rw [sum_full_iff, swapped_filled even, storedSum_toNat, residue_complement]

/-- The two bytes of a length in network order. -/
def network (n : Nat) : List UInt8 := [UInt8.ofNat (n >>> 8), UInt8.ofNat n]

/-- The bytes of a word that `htons` made. -/
theorem bytes16_htons {n : Nat} (short : n < 2 ^ 16) :
    bytes16 (UInt16.ofNat (htons n)) = network n := by
  have word : (UInt16.ofNat (htons n)).toNat = n % 2 ^ 8 * 2 ^ 8 + n / 2 ^ 8 := by
    rw [UInt16.toNat_ofNat', htons_eq short, Nat.mod_eq_of_lt (by omega)]
  have low : (UInt16.ofNat (htons n)).toUInt8 = UInt8.ofNat (n >>> 8) := by
    apply UInt8.toNat_inj.mp
    rw [UInt16.toNat_toUInt8, word, UInt8.toNat_ofNat', Nat.shiftRight_eq_div_pow]
    omega
  have high : (UInt16.ofNat (htons n) >>> 8).toUInt8 = UInt8.ofNat n := by
    have above : (n % 2 ^ 8 * 2 ^ 8 + n / 2 ^ 8) / 2 ^ 8 = n % 2 ^ 8 := by omega
    apply UInt8.toNat_inj.mp
    rw [UInt16.toNat_toUInt8, UInt16.toNat_shiftRight, word, UInt8.toNat_ofNat',
      Nat.shiftRight_eq_div_pow, eight_mod, above, Nat.mod_mod]
  rw [bytes16, low, high, network]

/-- The packet up to its IP header, for a text of a length. -/
def frameBytes (textLen : Nat) : List UInt8 :=
  [UInt8.ofNat (textLen + 42), UInt8.ofNat ((textLen + 42) >>> 8), 0x00, 0xD0, 0x59, 0xB5, 0xF0,
    0x84, 0x00, 0x02, 0xe3, 0x01, 0x82, 0x72, 0x08, 0x00]

/-- The IP header before its checksum. -/
def ipFront (textLen : Nat) : List UInt8 :=
  [0x45, 0x00] ++ network (textLen + 28) ++ [0x00, 0x00, 0x00, 0x00, 0x80, 0x11]

/-- The source and the destination. -/
def ipAddresses : List UInt8 := [172, 16, 10, 254, 172, 16, 10, 40]

/-- The UDP header before its checksum. -/
def udpFront (textLen : Nat) : List UInt8 := [0x04, 0x56, 0x04, 0x56] ++ network (textLen + 8)

/-- The pseudo-header, with the UDP header before its checksum. -/
def pseudoFront (textLen : Nat) : List UInt8 :=
  ipAddresses ++ [0x00, 0x11] ++ network (textLen + 8) ++ udpFront textLen

/-- The checksum of the IP header. -/
def ipStored (textLen : Nat) : UInt16 :=
  storedSum (swapped (ipFront textLen ++ (bytes16 0 ++ ipAddresses))).sum

/-- The checksum of the UDP part. -/
def udpStored (text : List UInt8) : UInt16 :=
  storedSum (swapped (pseudoFront text.length ++ (bytes16 0 ++ text))).sum

/-- The packet for a text. -/
def sentPacket (text : List UInt8) : List UInt8 :=
  frameBytes text.length ++ (ipFront text.length ++ (bytes16 (ipStored text.length) ++
    (ipAddresses ++ (udpFront text.length ++ (bytes16 (udpStored text) ++ text)))))

/-- The pseudo-header is made of whole words. -/
theorem pseudoHeader_even (textLen : Nat) :
    (ipAddresses ++ [0x00, 0x11] ++ network (textLen + 8)).length % 2 = 0 := by
  have length : (ipAddresses ++ [0x00, 0x11] ++ network (textLen + 8)).length = 12 := rfl
  rw [length]

/-- So is what stands before the checksum of the IP header. -/
theorem ipFront_even (textLen : Nat) : (ipFront textLen).length % 2 = 0 := by
  have length : (ipFront textLen).length = 10 := rfl
  rw [length]

/-- So is what stands before the checksum of the UDP header. -/
theorem pseudoFront_even (textLen : Nat) : (pseudoFront textLen).length % 2 = 0 := by
  have length : (pseudoFront textLen).length = 18 := rfl
  rw [length]

/-- The source address in memory, in the order of its four numbers. -/
theorem bytes32_source : bytes32 (ip4AddrOf 172 16 10 254) = [172, 16, 10, 254] := by decide

/-- The destination address in memory. -/
theorem bytes32_destination : bytes32 (ip4AddrOf 172 16 10 40) = [172, 16, 10, 40] := by decide

/-- The checksum while it is summed over is two zero bytes. -/
theorem bytes16_zero : bytes16 0 = [0x00, 0x00] := by decide

namespace FullUdp

variable (hdrs : FullUdp) (sum : UInt16) (logLen : Nat) (log : CString)

/-- Writing the IP checksum leaves what stands before the IP header. -/
@[simp] theorem setIpChksum_frameHeader :
    (hdrs.setIpChksum sum).frameHeader = hdrs.frameHeader := rfl

/-- Writing the UDP checksum leaves what stands before the IP header. -/
@[simp] theorem setUdpChksum_frameHeader :
    (hdrs.setUdpChksum sum).frameHeader = hdrs.frameHeader := rfl

/-- Writing the UDP checksum leaves the IP header. -/
@[simp] theorem setUdpChksum_ipHeader : (hdrs.setUdpChksum sum).ipHeader = hdrs.ipHeader := rfl

/-- Writing the UDP checksum leaves the text. -/
@[simp] theorem setUdpChksum_data : (hdrs.setUdpChksum sum).data = hdrs.data := rfl

/-- Writing the UDP header and the text leaves what stands before the IP header. -/
@[simp] theorem udpWritten_frameHeader :
    (udpWritten hdrs logLen log).frameHeader = hdrs.frameHeader := rfl

/-- Writing the UDP header and the text leaves the IP header. -/
@[simp] theorem udpWritten_ipHeader :
    (udpWritten hdrs logLen log).ipHeader = hdrs.ipHeader := rfl

/-- The text is copied to the start of the data. -/
@[simp] theorem udpWritten_data :
    (udpWritten hdrs logLen log).data = strcpy hdrs.data log := rfl

end FullUdp

/-- What stands before the IP header depends on the length of the text only. -/
theorem addressed_frameHeader (hdrs : FullUdp) (textLen : Nat) :
    (addressed hdrs (textLen + 28)).frameHeader = frameBytes textLen := by
  have type : bytes16 (UInt16.ofNat (htons 0x800)) = [0x08, 0x00] := bytes16_htons (by decide)
  simp only [FullUdp.frameHeader, addressed, type]
  rfl

/-- The IP header around its checksum: the front for the length of the text, and the two
addresses behind. -/
theorem addressed_ipHeader (hdrs : FullUdp) {textLen : Nat} (short : textLen + 28 < 2 ^ 16)
    (sum : UInt16) :
    ((addressed hdrs (textLen + 28)).setIpChksum sum).ipHeader =
      ipFront textLen ++ (bytes16 sum ++ ipAddresses) := by
  simp only [FullUdp.ipHeader, FullUdp.setIpChksum, addressed, bytes16_htons short, bytes32_source,
    bytes32_destination, bytes16_zero, ipFront, List.append_assoc]
  rfl

/-- The source address that the pseudo-header takes from the IP header. -/
theorem addressed_ipSrc (hdrs : FullUdp) (pktLen : Nat) (sum : UInt16) :
    ((addressed hdrs pktLen).setIpChksum sum).ipSrc = ip4AddrOf 172 16 10 254 := rfl

/-- The destination address that it takes from there. -/
theorem addressed_ipDst (hdrs : FullUdp) (pktLen : Nat) (sum : UInt16) :
    ((addressed hdrs pktLen).setIpChksum sum).ipDst = ip4AddrOf 172 16 10 40 := rfl

/-- The IP header is written without touching the data. -/
theorem addressed_data (hdrs : FullUdp) (pktLen : Nat) (sum : UInt16) :
    ((addressed hdrs pktLen).setIpChksum sum).data = hdrs.data := rfl

/-- The UDP header around its checksum, which is last in it. -/
theorem udpWritten_udpHeader (hdrs : FullUdp) {textLen : Nat} (short : textLen + 8 < 2 ^ 16)
    (log : CString) (sum : UInt16) :
    ((udpWritten hdrs textLen log).setUdpChksum sum).udpHeader =
      udpFront textLen ++ bytes16 sum := by
  have port : bytes16 (UInt16.ofNat (htons 0x456)) = [0x04, 0x56] := bytes16_htons (by decide)
  simp only [FullUdp.udpHeader, FullUdp.setUdpChksum, udpWritten, bytes16_htons short, port,
    udpFront]
  rfl

/-- The sum over the IP header. -/
theorem ipChkSum_eq (hdrs : FullUdp) {textLen : Nat} (short : textLen + 28 < 2 ^ 16) :
    chksum (addressed hdrs (textLen + 28)).atIpVerHlen 20 =
      (swapped (ipFront textLen ++ (bytes16 0 ++ ipAddresses))).sum := by
  have header := addressed_ipHeader hdrs short 0
  rw [chksum_eq (Nat.le_add_left _ _) (by decide), FullUdp.atIpVerHlen, List.take_left']
  · exact congrArg (fun bytes => (swapped bytes).sum) header
  · rfl

/-- The sum over a length in network order is what `htons` makes of it. -/
theorem swapped_network {n : Nat} (short : n < 2 ^ 16) : (swapped (network n)).sum = htons n := by
  rw [network, swapped, pairs, pairs, List.sum_singleton, UInt8.toNat_ofNat', UInt8.toNat_ofNat',
    Nat.shiftRight_eq_div_pow, htons_eq short]
  omega

/-- The UDP part up to the end of the text, before the sum is stored. -/
theorem udpWritten_take (hdrs : FullUdp) (log : CString) (short : log.chars.length + 8 < 2 ^ 16) :
    (udpWritten hdrs log.chars.length log).atUdpSrcPort.take (log.chars.length + 8) =
      udpFront log.chars.length ++ (bytes16 0 ++ log.chars) := by
  have header := udpWritten_udpHeader hdrs short log 0
  have here : (udpWritten hdrs log.chars.length log).atUdpSrcPort =
      (udpFront log.chars.length ++ (bytes16 0 ++ log.chars)) ++
        0 :: hdrs.data.drop (log.chars.length + 1) := by
    rw [List.append_assoc, List.append_assoc, ← List.append_assoc, ← header]
    rfl
  rw [here]
  apply List.take_left'
  rfl

/-- The sum over the UDP part. -/
theorem udpPart_eq (hdrs : FullUdp) (log : CString) (short : log.chars.length ≤ 979) :
    chksum (udpWritten hdrs log.chars.length log).atUdpSrcPort (log.chars.length + 8) =
      (swapped (udpFront log.chars.length ++ (bytes16 0 ++ log.chars))).sum := by
  have inside : log.chars.length + 8 ≤
      (udpWritten hdrs log.chars.length log).atUdpSrcPort.length := by
    rw [FullUdp.atUdpSrcPort, List.length_append, FullUdp.udpWritten_data, strcpy,
      List.length_append]
    show _ ≤ 8 + _
    omega
  rw [chksum_eq inside (by omega), udpWritten_take hdrs log (by omega)]

/-- The pseudo-header adds the addresses, the protocol and the length. -/
theorem swapped_pseudoFront (textLen : Nat) (short : textLen + 8 < 2 ^ 16) (rest : List UInt8) :
    (swapped (pseudoFront textLen ++ rest)).sum =
      htons 0xac10 + htons 0x0afe + htons 0xac10 + htons 0x0a28 + htons 17 + htons (textLen + 8) +
        (swapped (udpFront textLen ++ rest)).sum := by
  have addresses : (swapped (ipAddresses ++ [0x00, 0x11])).sum =
      htons 0xac10 + htons 0x0afe + htons 0xac10 + htons 0x0a28 + htons 17 := by decide
  rw [pseudoFront, List.append_assoc, swapped_sum_append (pseudoHeader_even _),
    swapped_sum_append (by decide), addresses, swapped_network short]

/-- The sum over the UDP part with its pseudo-header. -/
theorem udpChkSum_eq (hdrs : FullUdp) (log : CString) (short : log.chars.length ≤ 979)
    (source : hdrs.ipSrc = ip4AddrOf 172 16 10 254) (dest : hdrs.ipDst = ip4AddrOf 172 16 10 40) :
    udpChkSum (udpWritten hdrs log.chars.length log) log.chars.length =
      (swapped (pseudoFront log.chars.length ++ (bytes16 0 ++ log.chars))).sum := by
  have bound := swapped_sum_le (pseudoFront log.chars.length ++ (bytes16 0 ++ log.chars))
  have length : (pseudoFront log.chars.length ++ (bytes16 0 ++ log.chars)).length =
      log.chars.length + 20 := rfl
  have whole := swapped_pseudoFront log.chars.length (by omega) (bytes16 0 ++ log.chars)
  have sourceAddress : htonl (ip4AddrOf 172 16 10 254).toNat = 0xac100afe := by decide
  have destAddress : htonl (ip4AddrOf 172 16 10 40).toNat = 0xac100a28 := by decide
  have masks : (0xac100a28 &&& 0xffff0000) >>> 16 = 0xac10 ∧ 0xac100a28 &&& 0x0000ffff = 0x0a28 ∧
      (0xac100afe &&& 0xffff0000) >>> 16 = 0xac10 ∧ 0xac100afe &&& 0x0000ffff = 0x0afe := by decide
  have len : (log.chars.length + 8) % 2 ^ 16 = log.chars.length + 8 := Nat.mod_eq_of_lt (by omega)
  rw [udpChkSum, len, udpPart_eq hdrs log short]
  simp only [udpWritten, source, dest, sourceAddress, destAddress, masks, Nat.add_comm 8]
  omega

/-- The buffer holds the packet for the text, and what was behind its end. -/
theorem logPacket_bytes (hdrs : FullUdp) (log : CString) (short : log.chars.length ≤ 979) :
    (logPacket hdrs log.chars.length (log.chars.length + 28) log).bytes =
      sentPacket log.chars ++ 0 :: hdrs.data.drop (log.chars.length + 1) := by
  rw [logPacket, ipChkSum_eq hdrs (by omega), udpChkSum_eq _ log short (addressed_ipSrc ..)
      (addressed_ipDst ..), FullUdp.bytes, FullUdp.atIpVerHlen, FullUdp.atUdpSrcPort,
    udpWritten_udpHeader _ (by omega), FullUdp.setUdpChksum_frameHeader,
    FullUdp.udpWritten_frameHeader, FullUdp.setIpChksum_frameHeader, addressed_frameHeader,
    FullUdp.setUdpChksum_ipHeader, FullUdp.udpWritten_ipHeader, FullUdp.setUdpChksum_data,
    FullUdp.udpWritten_data, addressed_ipHeader _ (by omega), addressed_data, strcpy, sentPacket,
    ipStored, udpStored]
  simp only [List.append_assoc]

/-- `udp_log` sends the packet for the text. -/
theorem udpLog_eq (image : Image) (m : Memory) {udpLogInit : UInt8} (hdrs : FullUdp)
    {log : CString} (short : log.chars.length ≤ 979) (enabled : udpLogInit ≠ 0) :
    udpLog image m udpLogInit hdrs log = some {
      pipe := m.load32 (image.klsiEtherif + Ethernetif.offset .hout)
      sema := m.load32 (image.klsiEtherif + Ethernetif.offset .hsemout)
      data := sentPacket log.chars } := by
  have logLen : log.chars.length % 2 ^ 16 = log.chars.length := Nat.mod_eq_of_lt (by omega)
  have pktLen : (log.chars.length + 20 + 8) % 2 ^ 16 = log.chars.length + 28 :=
    Nat.mod_eq_of_lt (by omega)
  have size : (log.chars.length + 28 + (14 + 2)) % 2 ^ 16 = log.chars.length + 44 :=
    Nat.mod_eq_of_lt (by omega)
  rw [udpLog, logLen, pktLen, if_neg enabled, size, logPacket_bytes hdrs log short, List.take_left']
  rfl

/-- A word in network order has the value that it was written with. -/
theorem network_value {n : Nat} (short : n < 2 ^ 16) :
    2 ^ 8 * (UInt8.ofNat (n >>> 8)).toNat + (UInt8.ofNat n).toNat = n := by
  rw [UInt8.toNat_ofNat', UInt8.toNat_ofNat', Nat.shiftRight_eq_div_pow]
  omega

/-- The sum of what the UDP checksum covers, before the checksum is there. -/
theorem words_covered {text : List UInt8} (short : text.length + 8 < 2 ^ 16) :
    (words (pseudoFront text.length ++ (bytes16 0 ++ text))).sum = coveredSum text := by
  have length : (words (network (text.length + 8))).sum = text.length + 8 := network_value short
  have addresses : (words (ipAddresses ++ [0x00, 0x11])).sum =
      0xac10 + 0x0afe + 0xac10 + 0x0a28 + 17 := by decide
  have ports : (words [0x04, 0x56, 0x04, 0x56]).sum = 1110 + 1110 := by decide
  have front : (words (pseudoFront text.length)).sum =
      0xac10 + 0x0afe + 0xac10 + 0x0a28 + 17 + (text.length + 8) +
        (1110 + 1110 + (text.length + 8)) := by
    rw [pseudoFront, udpFront, words_sum_append (pseudoHeader_even _),
      words_sum_append (by decide), addresses, length, words_sum_append (by decide), ports, length]
  have empty : (words (bytes16 0)).sum = 0 := by decide
  rw [words_sum_append (pseudoFront_even _), words_sum_append (by decide), front, empty, coveredSum]
  omega

/-- The stored checksum is zero if and only if the sum without it is full. -/
theorem udpStored_eq_zero_iff (text : List UInt8) (short : text.length + 8 < 2 ^ 16) :
    (udpStored text).toNat = 0 ↔ coveredSum text % 0xffff = 0 := by
  have some : coveredSum text ≠ 0 := by
    rw [coveredSum]
    omega
  have bound := residue_le (swapped (pseudoFront text.length ++ (bytes16 0 ++ text))).sum
  have full := swapped_full_iff (pseudoFront text.length ++ (bytes16 0 ++ text))
  rw [words_covered short, residue_full_iff (coveredSum text)] at full
  rw [udpStored, storedSum_toNat]
  omega

/-- What is sent for a text that fits. -/
theorem sentPacket_accepted_iff {text : List UInt8} (short : text.length ≤ 979) :
    Accepted text (sentPacket text) ↔ coveredSum text % 0xffff ≠ 0 := by
  have size : (sentPacket text).length = text.length + 44 := rfl
  have zero := udpStored_eq_zero_iff text (by omega)
  have stored : networkAt (sentPacket text) 42 ≠ 0 ↔ (udpStored text).toNat ≠ 0 := by
    have value := bytes16_sum (udpStored text)
    show 2 ^ 8 * (udpStored text).toUInt8.toNat + (udpStored text >>> 8).toUInt8.toNat ≠ 0 ↔ _
    omega
  constructor
  · intro accepted
    have some := stored.mp accepted.chksum
    omega
  · intro some
    constructor
    · rw [size, Nat.add_comm]
    · exact (Nat.add_comm ..).trans ((network_value (n := text.length + 42) (by omega)).trans
        (Nat.add_comm ..))
    · exact (network_value (n := text.length + 28) (by omega)).trans (Nat.add_comm ..)
    · exact (network_value (n := text.length + 8) (by omega)).trans (Nat.add_comm ..)
    · rfl
    · exact sum_stored (ipFront_even _) ipAddresses
    · have parts : pseudoHeader (sentPacket text) ++ (sentPacket text).drop 36 =
          pseudoFront text.length ++ (bytes16 (udpStored text) ++ text) := by
        rfl
      rw [parts]
      exact sum_stored (pseudoFront_even _) text
    · omega

/-- `udp_log` sends a packet that a receiver accepts if and only if the sum that the UDP
checksum covers is not a multiple of `0xffff`.

Proof: the packet sent is computed from the text. A receiver adds up the same words as the
driver has, with the checksum among them, and rejects only a checksum that came out as
zero. -/
theorem udpLog_accepted_iff (image : Image) (m : Memory) {udpLogInit : UInt8} (hdrs : FullUdp)
    {log : CString} (fits : 44 + log.chars.length + 1 ≤ udpBufferSize) (enabled : udpLogInit ≠ 0) :
    (∃ transfer, udpLog image m udpLogInit hdrs log = some transfer ∧
      Accepted log.chars transfer.data) ↔ coveredSum log.chars % 0xffff ≠ 0 := by
  have short : log.chars.length ≤ 979 := by
    rw [udpBufferSize] at fits
    omega
  rw [udpLog_eq image m hdrs short enabled, ← sentPacket_accepted_iff short]
  constructor
  · rintro ⟨transfer, sent, accepted⟩
    cases sent
    exact accepted
  · intro accepted
    exact ⟨_, rfl, accepted⟩

/-- The buffer before anything was written. -/
def emptyBuffer : FullUdp :=
  ⟨0, 0, .replicate 6 0, .replicate 6 0, 0, 0, 0, 0, 0, 0, 0, 0, 0, 0, 0, 0, 0, 0, 0, 0,
    List.replicate 980 0⟩

/-- `"ABC"`, a text of odd length. -/
def oddText : CString := ⟨[0x41, 0x42, 0x43], by decide⟩

/-- `"DqEr"`, a text with which the sum comes out full. -/
def fullText : CString := ⟨[0x44, 0x71, 0x45, 0x72], by decide⟩

/-- A text of an odd length: its last byte is summed as if a zero byte followed. -/
theorem udpLog_accepted_odd :
    ∃ transfer, udpLog exampleImage (fun _ => 0) 1 emptyBuffer oddText = some transfer ∧
      Accepted oddText.chars transfer.data :=
  (udpLog_accepted_iff exampleImage (fun _ => 0) emptyBuffer (by decide) (by decide)).mpr
    (by decide)

/-- With this text the stored checksum is zero. -/
theorem udpLog_unchecked :
    ¬ ∃ transfer, udpLog exampleImage (fun _ => 0) 1 emptyBuffer fullText = some transfer ∧
      Accepted fullText.chars transfer.data := by
  rw [udpLog_eq exampleImage (fun _ => 0) emptyBuffer (by decide) (by decide)]
  rintro ⟨transfer, sent, accepted⟩
  cases sent
  exact (sentPacket_accepted_iff (by decide)).mp accepted (by decide)

end Ps2Eth.Ps2klsi
