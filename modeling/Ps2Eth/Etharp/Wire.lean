import Ps2Eth.Etharp.Resolution
import Ps2Eth.Etharp.Image

/-!
# From one console to another

A packet goes through the whole driver: `ethernetif_output` gives it its header from the
memory, `low_level_output` puts its length before it, the adapters carry the bytes, and
on the other side `low_level_input` makes a chain of pbufs of them that
`ethernetif_input` looks at.
-/

namespace Ps2Eth.Etharp

open CRecords
open Ps2klsi (arpTableSize Image PBuf)

/-- The adapters bring the frame of one transfer into the buffer of another driver. The
frame may have been padded. -/
structure Delivered (transfer : List UInt8) (buf : Nat → UInt8) : Prop where
  length : transfer.length ≤ Ps2klsi.lengthPrefix buf + 2
  bytes : ∀ k, k + 2 < transfer.length → buf (2 + k) = transfer.getD (2 + k) 0

/-- The packet whose headers are in the first pbuf of a chain. -/
def inputPacket (behind : Memory) (chain : PBuf) : Packet :=
  ⟨chain.totLen, fun k => (chain.segments.headD []).getD k (behind k)⟩

/-- What is at the start of the first pbuf. -/
theorem inputPacket_at (behind : Memory) {buf : Nat → UInt8} {first : Nat} (rest : List Nat) {k : Nat}
    (inside : k < first) (totLen : Nat) :
    (inputPacket behind ⟨totLen, Ps2klsi.readChain buf 2 (first :: rest)⟩).payload k = buf (2 + k) := by
  have length : k < ((List.range' 2 first).map buf).length := by
    rw [List.length_map, List.length_range']
    exact inside
  simp only [inputPacket, Ps2klsi.readChain, List.headD_cons]
  rw [List.getD_eq_getElem _ _ length, List.getElem_map, List.getElem_range', Nat.one_mul]

/-- An IP packet from the local network updates the entry of its sender. -/
theorem step_ip (netif : Netif) {p : Packet} (type : p.ip.eth.type = htons ethtypeIp)
    (local_ : ipAddrMaskcmp p.ip.ip.src netif.ipAddr netif.netmask = true) (table : ArpTable) :
    (Event.step table (.input netif p)).1 =
      updateArpEntry table netif p.ip.ip.src p.ip.eth.src arpInsertFlag := by
  have isIp : htons p.eth.type = ethtypeIp := by
    rw [← htons_htons ethtypeIp, ← type]
    rfl
  have neighbour : ¬ ipAddrMaskcmp p.ip.ip.src netif.ipAddr netif.netmask = false := by
    rw [local_]
    decide
  rw [Event.step, if_pos isIp, etharpIpInput, if_neg neighbour]

variable {image : Image} {m : Memory} {table : ArpTable} {address : Nat} {a b : Netif}

/-- The transfer that `ethernetif_output` starts is for the packet with its header. -/
theorem ethernetifOutput_framed (tableAt : TableAt image m table) (netifAt : NetifAt m address a)
    {pbufHeader : PBuf → Option PBuf} {p q : PBuf} (room : pbufHeader p = some q)
    (roomy : HeaderRoom q) {behind outbuffer : Nat → UInt8} {ipaddr : Option UInt32}
    {transfer : Ps2klsi.BulkOut} (sent : Ps2klsi.ethernetifOutput image pbufHeader behind m address
      outbuffer (ipaddr.map UInt32.toNat) p = some transfer) :
    ∃ frame ethaddr, packetOf frame = framed a ethaddr (packetOf q) ∧
      frame.bytes.length = q.bytes.length ∧ transfer.data = Ps2klsi.sentBytes outbuffer frame := by
  have carries := etharpOutput_carries tableAt netifAt room behind ipaddr
  rw [Ps2klsi.ethernetifOutput] at sent
  generalize Ps2klsi.etharpOutput image pbufHeader behind m address (ipaddr.map UInt32.toNat) p =
    result at carries sent
  generalize destination a ipaddr = target at carries
  have resolved {dest : Nat → UInt8} {ethaddr : EthAddr} (same : ∀ k : Fin 6, dest k = ethaddr k)
      (isResolved : result = Ps2klsi.resolved m address dest q) :
      ∃ frame ethaddr, packetOf frame = framed a ethaddr (packetOf q) ∧
        frame.bytes.length = q.bytes.length ∧ transfer.data = Ps2klsi.sentBytes outbuffer frame := by
    obtain ⟨frame, isFrame, packet, covers⟩ := resolved_framed netifAt roomy same
    rw [isResolved, isFrame] at sent
    refine ⟨frame, ethaddr, packet, covers, ?_⟩
    rw [← Option.some.inj sent]
    rfl
  cases carries with
  | hwaddr same => exact resolved same rfl
  | noGateway => cases sent
  | missing missing => cases sent
  | found found same => exact resolved same rfl

/-- An IP packet that one console transmits is read by another one, with its headers in
the first pbuf. If both are in one network, and the table of the second has a place for
it, then from there on the second console answers for the address of the first.

Proof: the header is followed from the transfer of one adapter into the pbuf of the other,
byte by byte, and read back there. What is read is the sender's own address, for which
there is a place in the table. -/
theorem transfer_is_learned (tableAt : TableAt image m table) (netifAt : NetifAt m address a)
    (fullA : a.hwaddrLen.val = 6) (fullB : b.hwaddrLen.val = 6)
    {pbufHeader : PBuf → Option PBuf} {p q : PBuf} (room : pbufHeader p = some q)
    (roomy : HeaderRoom q) (whole : q.Whole) (own : OwnPacket a (packetOf q))
    {behind outbuffer : Nat → UInt8} {ipaddr : Option UInt32} {transfer : Ps2klsi.BulkOut}
    (sent : Ps2klsi.ethernetifOutput image pbufHeader behind m address outbuffer
      (ipaddr.map UInt32.toNat) p = some transfer)
    {buf : Nat → UInt8} (delivered : Delivered transfer.data buf) {pbufAlloc : Nat → Option (List Nat)}
    {first : Nat} {rest : List Nat} (given : pbufAlloc (Ps2klsi.lengthPrefix buf) = some (first :: rest))
    (header : EthipHdr.layout.size ≤ first) {tableB : ArpTable} (wellFormed : WellFormed tableB)
    (notZero : a.ipAddr ≠ 0) (neighbour : ipAddrMaskcmp a.ipAddr b.ipAddr b.netmask = true)
    (placed : placeFor tableB a.ipAddr ≠ none) (len : Nat) (after : Memory) :
    ∃ chain, Ps2klsi.lowLevelInput pbufAlloc buf len = some chain ∧
      answerFor 6 (Event.step tableB (.input b (inputPacket after chain))).1 a.ipAddr =
        some (List.ofFn a.hwaddr, 0) := by
  obtain ⟨frame, ethaddr, packet, covers, data⟩ := ethernetifOutput_framed tableAt netifAt room roomy sent
  have totLen : frame.totLen = q.totLen := congrArg Packet.totLen packet
  have long : EthipHdr.layout.size ≤ q.totLen := own.1
  have size : EthipHdr.layout.size = 34 := layout_size.2.2
  rw [Ps2klsi.PBuf.Whole] at whole
  refine ⟨⟨Ps2klsi.lengthPrefix buf, Ps2klsi.readChain buf 2 (first :: rest)⟩, ?_, ?_⟩
  · rw [Ps2klsi.lowLevelInput, given]
    rfl
  · have arrived : (inputPacket after ⟨Ps2klsi.lengthPrefix buf,
        Ps2klsi.readChain buf 2 (first :: rest)⟩).ip = (framed a ethaddr (packetOf q)).ip := by
      apply EthipHdr.layout.read_congr
      intro k inside
      have inTransfer : k + 2 < transfer.data.length := by
        rw [data, Ps2klsi.sentBytes, List.length_map, List.length_range]
        omega
      have inBuffer : k + 2 < Ps2klsi.outbufferSize := by
        rw [Ps2klsi.outbufferSize]
        omega
      rw [inputPacket_at after rest (by omega), delivered.bytes k inTransfer, data,
        Ps2klsi.sentBytes_at outbuffer inBuffer (by omega) (by omega), ← packet]
      rfl
    have src : (framed a ethaddr (packetOf q)).ip.ip.src = a.ipAddr := by
      rw [framed_ip]
      exact own.2
    have local_ : ipAddrMaskcmp (framed a ethaddr (packetOf q)).ip.ip.src b.ipAddr b.netmask = true := by
      rw [src]
      exact neighbour
    have hwaddr : (framed a ethaddr (packetOf q)).ip.eth.src = a.hwaddr := by
      rw [framed_ip]
      exact copyAddr_full fullA _ _
    have stepB := step_ip b (by rw [arrived, framed_ip]) (by rw [arrived]; exact local_) tableB
    have learned := answerFor_update wellFormed b notZero placed a.hwaddr arpInsertFlag
    rw [fullB, known, List.take_of_length_le (by rw [List.length_ofFn])] at learned
    rw [stepB, arrived, src, hwaddr]
    exact learned

/-- The gateway learns the address of the console. -/
theorem transfer_is_learned_console :
    ∃ chain, Ps2klsi.lowLevelInput (fun length => some [length])
        (fun k => consoleTransfer.data.getD k 0) 36 = some chain ∧
      answerFor 6 (Event.step (etharpInit unset)
        (.input gateway (inputPacket (fun _ => 0) chain))).1 console.ipAddr =
          some (List.ofFn console.hwaddr, 0) :=
  transfer_is_learned consoleMemory_tableAt consoleMemory_netifAt rfl rfl consoleChain_room
    (headerRoom_of_headed (Ps2klsi.roomyHeader_grows _ _ consoleChain_room)) rfl (by decide)
    consoleTransfer_sent ⟨by decide, fun _ _ => rfl⟩
    (rfl : (fun length => some [length]) (Ps2klsi.lengthPrefix fun k => consoleTransfer.data.getD k 0) =
      some [Ps2klsi.lengthPrefix fun k => consoleTransfer.data.getD k 0]) (by decide)
    (wellFormed_init unset) (by decide) (by decide) (by decide) 36 fun _ => 0

end Ps2Eth.Etharp
