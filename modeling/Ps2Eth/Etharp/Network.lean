import Ps2Eth.Etharp.Input
import Ps2Eth.Lib.Broadcast

/-!
# Hosts on one Ethernet

Hosts that run the ARP module of `common/lwip/etharp.c` resolve the addresses of each
other. Each host has an interface, with its IP address and its hardware address. What a
host sends can arrive anywhere, at any time, and any number of times.

No table ever has a wrong address, although every host takes over whatever it reads from
the packets that pass by: what is shown in a packet is always right.
-/

namespace Ps2Eth.Etharp

open CRecords
open Ps2klsi (arpTableSize)

/-- The bytes of a packet arrive, perhaps with more behind them. -/
def Arrives (sent arrived : Packet) : Prop :=
  sent.totLen ≤ arrived.totLen ∧ ∀ k < sent.totLen, arrived.payload k = sent.payload k

/-- Whether a packet arrives as another one was sent is found by comparing their bytes. -/
instance (sent arrived : Packet) : Decidable (Arrives sent arrived) :=
  inferInstanceAs (Decidable (_ ∧ _))

/-- A packet that the IP layer of a host made, with room for the Ethernet header: it has
an IP header, with the address of the host as its source. -/
def OwnPacket (netif : Netif) (q : Packet) : Prop :=
  EthipHdr.layout.size ≤ q.totLen ∧ q.ip.ip.src = netif.ipAddr

/-- Whether a packet is of a host is found by reading its header. -/
instance (netif : Netif) (q : Packet) : Decidable (OwnPacket netif q) :=
  inferInstanceAs (Decidable (_ ∧ _))

variable {Host : Type}

/-- The timer of a host runs, or its IP layer sends a packet. -/
def ownEvent (net : Host → Netif) (host : Host) : Event → Bool
  | .tmr => true
  | .input _ _ => false
  | .output netif room _ _ => netif = net host ∧ ∀ q ∈ room, OwnPacket netif q

/-- A packet that was sent arrives at a host. -/
def arrival (net : Host → Netif) (host : Host) (sent : Packet) : Event → Bool
  | .input netif arrived => netif = net host ∧ Arrives sent arrived
  | _ => false

/-- The hosts, with the ARP module in each of them. -/
def hosts (net : Host → Netif) : Broadcast.Nodes Host ArpTable Event Packet where
  react := Event.step
  own := ownEvent net
  arrives := arrival net

/-- A host has these two addresses. -/
def Binding (net : Host → Netif) (ipaddr : UInt32) (ethaddr : EthAddr) : Prop :=
  ∃ host, (net host).ipAddr = ipaddr ∧ (net host).hwaddr = ethaddr

/-- What a table answers is right. -/
def RightTable (net : Host → Netif) (table : ArpTable) : Prop :=
  ∀ i, (table i).state = .stable → Binding net (table i).ipaddr (table i).ethaddr

/-- What a packet shows is right, wherever it arrives. -/
def RightPacket (net : Host → Netif) (sent : Packet) : Prop :=
  ∀ arrived netif, Arrives sent arrived → ∀ pair ∈ shown netif arrived, pair.1 ≠ 0 →
    Binding net pair.1 pair.2

variable {net : Host → Netif} {table : ArpTable}

/-- A stable entry is replaced by a right one, or by one that is not stable. -/
theorem RightTable.set (right : RightTable net table) {i : Fin arpTableSize} {entry : EtharpEntry}
    (new : entry.state = .stable → Binding net entry.ipaddr entry.ethaddr) :
    RightTable net (Function.update table i entry) := by
  intro j stable
  rcases eq_or_ne j i with rfl | other
  · rw [Function.update_self] at stable ⊢
    exact new stable
  · rw [Function.update_of_ne other] at stable ⊢
    exact right j stable

/-- An update tells what is right. -/
def RightCall (net : Host → Netif) : Call → Prop
  | .update netif ipaddr ethaddr _ =>
    netif.hwaddrLen.val = 6 ∧ (ipaddr ≠ 0 → Binding net ipaddr ethaddr)
  | _ => True

/-- A right call leaves right entries right: what it puts in is the pair of a host, and
what it takes over it leaves. -/
theorem rightTable_run (right : RightTable net table) {call : Call} (rightCall : RightCall net call) :
    RightTable net (call.run table) := by
  cases call with
  | tmr =>
    intro i stable
    have used : (etharpTmr table i).state ≠ .empty := by
      rw [← Call.run, stable]
      decide
    obtain ⟨older, -, -⟩ := etharpTmr_used used
    rw [Call.run, older] at stable ⊢
    exact right i stable
  | update netif ipaddr ethaddr flags =>
    obtain ⟨full, binding⟩ := rightCall
    rw [Call.run, updateArpEntry_eq]
    split
    case isTrue => exact right
    case isFalse notZero =>
      split
      case h_1 => exact right
      case h_2 i _ =>
        apply right.set
        intro _
        rw [answer, copyAddr_full full]
        exact binding notZero
  | query ipaddr =>
    rw [Call.run, queryTable_eq]
    split
    case isTrue => exact right
    case isFalse =>
      split
      case h_1 => exact right
      case h_2 i _ =>
        apply right.set
        intro stable
        cases stable

/-- So does a run of right calls, one after the other. -/
theorem rightTable_runCalls {calls : List Call} (rightCalls : ∀ call ∈ calls, RightCall net call)
    (right : RightTable net table) : RightTable net (runCalls calls table) := by
  induction calls generalizing table with
  | nil => exact right
  | cons call rest inductionHypothesis =>
    have first := rightTable_run right (rightCalls call (List.mem_cons_self ..))
    exact inductionHypothesis (fun later member => rightCalls later (List.mem_cons_of_mem _ member)) first

/-- An ARP packet that arrives has the header that was sent. -/
theorem Arrives.arp {sent arrived : Packet} (arrives : Arrives sent arrived)
    (long : EtharpHdr.layout.size ≤ sent.totLen) : arrived.arp = sent.arp := by
  apply EtharpHdr.layout.read_congr
  intro k inside
  exact arrives.2 k (Nat.lt_of_lt_of_le inside long)

/-- The headers of an IP packet arrive as they were sent. -/
theorem Arrives.ip {sent arrived : Packet} (arrives : Arrives sent arrived)
    (long : EthipHdr.layout.size ≤ sent.totLen) : arrived.ip = sent.ip := by
  apply EthipHdr.layout.read_congr
  intro k inside
  exact arrives.2 k (Nat.lt_of_lt_of_le inside long)

/-- What an ARP packet shows, by its header. -/
theorem shown_arp {netif : Netif} {p : Packet} (long : EtharpHdr.layout.size ≤ p.totLen)
    (type : p.arp.ethhdr.type = htons ethtypeArp) :
    ∀ pair ∈ shown netif p, pair = (p.arp.sipaddr, p.arp.shwaddr) ∨
      p.arp.opcode = htons arpReply ∧ pair = (p.arp.dipaddr, p.arp.dhwaddr) := by
  have isArp : htons p.eth.type = ethtypeArp := by
    rw [← htons_htons ethtypeArp, ← type]
    rfl
  have notIp : htons p.eth.type ≠ ethtypeIp := by
    rw [isArp]
    decide
  rw [shown, if_neg notIp, if_pos isArp, shownByArp, if_neg (Nat.not_lt.mpr long)]
  intro pair member
  split at member
  case isTrue =>
    split at member
    case isTrue => cases member
    case isFalse => exact Or.inl (List.mem_singleton.mp member)
  case isFalse =>
    split at member
    case isTrue reply =>
      have opcode : p.arp.opcode = htons arpReply := by rw [← reply, htons_htons]
      split at member
      case isTrue => exact Or.inl (List.mem_singleton.mp member)
      case isFalse =>
        rcases List.mem_cons.mp member with sender | other
        · exact Or.inl sender
        · exact Or.inr ⟨opcode, List.mem_singleton.mp other⟩
    case isFalse => cases member

/-- What an IP packet shows is its sender. -/
theorem shown_ip {netif : Netif} {p : Packet} (type : p.ip.eth.type = htons ethtypeIp) :
    ∀ pair ∈ shown netif p, pair = (p.ip.ip.src, p.ip.eth.src) := by
  have isIp : htons p.eth.type = ethtypeIp := by
    rw [← htons_htons ethtypeIp, ← type]
    rfl
  rw [shown, if_pos isIp, shownByIp]
  intro pair member
  split at member
  case isTrue => cases member
  case isFalse => exact List.mem_singleton.mp member

/-- A request shows the host that sends it. -/
theorem rightPacket_request {host : Host} (full : (net host).hwaddrLen.val = 6) (ipaddr : UInt32)
    (m : Memory) :
    RightPacket net ⟨EtharpHdr.layout.size, requestBytes (net host) ipaddr m⟩ := by
  intro arrived netif arrives pair member _
  have header : arrived.arp = wholeRequest (net host) ipaddr := by
    rw [arrives.arp (Nat.le_refl _), Packet.arp, requestBytes, Layout.read_write, requestFor_full full]
  have type : arrived.arp.ethhdr.type = htons ethtypeArp := by
    rw [header]
    rfl
  rcases shown_arp arrives.1 type pair member with rfl | ⟨reply, -⟩
  · rw [header]
    exact ⟨host, rfl, rfl⟩
  · have differs : htons arpRequest ≠ htons arpReply := by decide
    rw [header] at reply
    exact absurd reply differs

/-- A reply shows the host that sends it, and the one that asked. -/
theorem rightPacket_reply {host : Host} (full : (net host).hwaddrLen.val = 6) {p : Packet}
    (long : EtharpHdr.layout.size ≤ p.totLen)
    (asked : p.arp.sipaddr ≠ 0 → Binding net p.arp.sipaddr p.arp.shwaddr) :
    RightPacket net { p with payload := replyBytes (net host) (net host).hwaddr p.payload } := by
  intro arrived netif arrives pair member notZero
  have header : arrived.arp = wholeReply (net host) (net host).hwaddr p.arp := by
    rw [arrives.arp long, Packet.arp, replyBytes, Layout.read_write, replyTo_full full]
    rfl
  have type : arrived.arp.ethhdr.type = htons ethtypeArp := by
    rw [header]
    rfl
  have longer : EtharpHdr.layout.size ≤ arrived.totLen := Nat.le_trans long arrives.1
  rcases shown_arp longer type pair member with rfl | ⟨-, rfl⟩
  · rw [header]
    exact ⟨host, rfl, rfl⟩
  · rw [header] at notZero ⊢
    exact asked notZero

/-- The headers of a packet that was framed. -/
theorem framed_ip (netif : Netif) (dest : EthAddr) (q : Packet) :
    (framed netif dest q).ip = ⟨⟨copyAddr netif.hwaddrLen dest q.eth.dest,
      copyAddr netif.hwaddrLen netif.hwaddr q.eth.src, htons ethtypeIp⟩, q.ip.ip⟩ := by
  have eth : (framed netif dest q).ip.eth = ⟨copyAddr netif.hwaddrLen dest q.eth.dest,
      copyAddr netif.hwaddrLen netif.hwaddr q.eth.src, htons ethtypeIp⟩ :=
    Layout.read_write EthHdr.layout _ q.payload
  have ip : (framed netif dest q).ip.ip = q.ip.ip := by
    apply IpHdr.layout.read_congr
    intro k _
    exact Layout.write_apart _ _ _ (Nat.le_add_right _ k)
  rw [← eth, ← ip]

/-- A packet of a host shows that host. -/
theorem rightPacket_framed {host : Host} (full : (net host).hwaddrLen.val = 6) {q : Packet}
    (own : OwnPacket (net host) q) (dest : EthAddr) : RightPacket net (framed (net host) dest q) := by
  intro arrived netif arrives pair member _
  have same : arrived.ip = (framed (net host) dest q).ip := arrives.ip own.1
  rw [framed_ip] at same
  have type : arrived.ip.eth.type = htons ethtypeIp := by rw [same]
  rw [shown_ip type pair member, same, own.2, copyAddr_full full, copyAddr_full full]
  exact ⟨host, rfl, rfl⟩

/-- What an event does, from right calls and a table with right entries. -/
theorem rightTable_step {event : Event} (rightCalls : ∀ call ∈ event.calls, RightCall net call)
    (right : RightTable net table) : RightTable net (event.step table).1 := by
  rw [step_table]
  exact rightTable_runCalls rightCalls right

/-- The timer and the IP layer keep the table right, and send right packets.

Proof: by the event. A tick changes no pair; a packet to send is answered with nothing,
the packet itself in a header, or a request, and each of these says of the sender what is
true. -/
theorem own_right {host : Host} (full : (net host).hwaddrLen.val = 6) {event : Event}
    (right : RightTable net table) (own : ownEvent net host event = true) :
    RightTable net (event.step table).1 ∧ ∀ sent ∈ (event.step table).2, RightPacket net sent := by
  cases event with
  | tmr =>
    refine ⟨rightTable_step ?_ right, ?_⟩
    · intro call member
      rw [List.mem_singleton.mp member]
      exact trivial
    · intro sent member
      cases member
  | input netif p => cases own
  | output netif room ipaddr alloc =>
    obtain ⟨rfl, ownPackets⟩ := of_decide_eq_true own
    constructor
    · apply rightTable_step _ right
      intro call member
      cases room with
      | none => cases member
      | some q =>
        rw [Event.calls] at member
        split at member
        case h_1 =>
          rw [List.mem_singleton.mp member]
          exact trivial
        case h_2 => cases member
    · intro sent member
      cases room with
      | none => cases member
      | some q =>
        have ownPacket := ownPackets q rfl
        simp only [Event.step, etharpOutput] at member
        split at member
        case h_1 => cases member
        case h_2 dest _ =>
          rw [List.mem_singleton.mp member]
          exact rightPacket_framed full ownPacket dest
        case h_3 hop _ =>
          split at member
          case h_1 i _ =>
            rw [List.mem_singleton.mp member]
            exact rightPacket_framed full ownPacket (table i).ethaddr
          case h_2 =>
            simp only [etharpQuery] at member
            split at member
            case h_1 => cases member
            case h_2 =>
              split at member
              case h_1 => cases member
              case h_2 m =>
                rw [List.mem_singleton.mp member]
                exact rightPacket_request full hop m

/-- A right packet that arrives keeps the table right, and is answered by a right one.

Proof: the table takes over the pairs that the packet shows, which are right because the
packet is. What is sent is a reply to a request, which names the sender and the asker, or
nothing. -/
theorem arrival_right {host : Host} (full : (net host).hwaddrLen.val = 6) {event : Event}
    {sent : Packet} (right : RightTable net table) (rightSent : RightPacket net sent)
    (arrives : arrival net host sent event = true) :
    RightTable net (event.step table).1 ∧ ∀ reply ∈ (event.step table).2, RightPacket net reply := by
  cases event with
  | tmr => cases arrives
  | output netif room ipaddr alloc => cases arrives
  | input netif p =>
    obtain ⟨rfl, carried⟩ := of_decide_eq_true arrives
    have rightShown := rightSent p (net host) carried
    constructor
    · apply rightTable_step _ right
      intro call member
      obtain ⟨pair, isShown, rfl⟩ := List.mem_map.mp member
      exact ⟨full, rightShown pair isShown⟩
    · intro reply member
      rw [Event.step] at member
      split at member
      case isTrue => cases member
      case isFalse notIp =>
        split at member
        case isFalse => cases member
        case isTrue isArp =>
          simp only [etharpArpInput] at member
          split at member
          case isTrue => cases member
          case isFalse long =>
            split at member
            case isTrue request =>
              split at member
              case isTrue => cases member
              case isFalse configured =>
                split at member
                case isTrue =>
                  have shows : (p.arp.sipaddr, p.arp.shwaddr) ∈ shown (net host) p := by
                    rw [shown, if_neg notIp, if_pos isArp, shownByArp, if_neg long, if_pos request,
                      if_neg configured]
                    exact List.mem_singleton_self _
                  rw [List.mem_singleton.mp member]
                  exact rightPacket_reply full (Nat.le_of_not_lt long) (rightShown _ shows)
                case isFalse => cases member
            case isFalse =>
              split at member
              case isTrue =>
                split at member
                case isTrue => cases member
                case isFalse => cases member
              case isFalse => cases member

variable [DecidableEq Host]

/-- Every table starts empty, as `etharp_init` leaves it, whatever it held before. -/
def Fresh (table : ArpTable) : Prop := ∃ before, table = etharpInit before

/-- In every run of the hosts, every table is right. -/
theorem tables_right (full : ∀ host, (net host).hwaddrLen.val = 6)
    {steps : List (Broadcast.World Host ArpTable Packet × Broadcast.Action Host Event)}
    {world : Broadcast.World Host ArpTable Packet}
    (run : Runs.Run (Broadcast.step (hosts net)) (Broadcast.Start Fresh) steps world) (host : Host) :
    RightTable net (world.states host) := by
  have good := Broadcast.always_good (RightTable net) (RightPacket net) ?_ ?_ ?_ run
  · exact good.1 host
  · rintro table ⟨before, rfl⟩ i stable
    cases stable
  · intro node table event right own
    exact own_right (full node) right own
  · intro node table sent event right rightSent arrives
    exact arrival_right (full node) right rightSent arrives

/-- However packets are delayed, lost, repeated or reordered: a packet that a host sends
to a next hop is addressed to a host that has the address of that hop.

Proof: every packet on the network says of its sender what is true, and so the tables are
right, by induction on the run of all hosts. The frame is addressed from such a table. -/
theorem frame_reaches_next_hop (full : ∀ host, (net host).hwaddrLen.val = 6)
    {steps : List (Broadcast.World Host ArpTable Packet × Broadcast.Action Host Event)}
    {world : Broadcast.World Host ArpTable Packet}
    (run : Runs.Run (Broadcast.step (hosts net)) (Broadcast.Start Fresh) steps world) (host : Host)
    {q sent : Packet} {ipaddr : Option UInt32} {hop : UInt32}
    (next : destination (net host) ipaddr = .host hop) (alloc : Option Memory)
    (returned : (etharpOutput (net host) (some q) ipaddr alloc (world.states host)).returned =
      some sent) :
    ∃ neighbour, (net neighbour).ipAddr = hop ∧
      sent = framed (net host) (net neighbour).hwaddr q := by
  simp only [etharpOutput, next] at returned
  split at returned
  case h_1 i found =>
    obtain ⟨stable, rfl⟩ := lookup_some found
    obtain ⟨neighbour, same, hwaddr⟩ := tables_right full run host i stable
    refine ⟨neighbour, same, ?_⟩
    rw [hwaddr]
    exact (Option.some.inj returned).symm
  case h_2 => cases returned

section Instances

/-- The console and the gateway. -/
def pair (isGateway : Bool) : Netif := if isGateway then gateway else console

/-- The request of the console for the gateway. -/
def consoleRequest : Packet := ⟨42, requestBytes console gateway.ipAddr fun _ => 0⟩

/-- A request, the reply to it, and the arrival of both. -/
def exchange : List (Broadcast.Action Bool Event) :=
  [.own false (.output console (some consolePacket) (some gateway.ipAddr) (some fun _ => 0)),
    .deliver true 0 (.input gateway consoleRequest),
    .deliver false 1 (.input console
      ⟨42, replyBytes gateway gateway.hwaddr consoleRequest.payload⟩)]

/-- After the exchange the console sends its packets to the gateway. -/
theorem frame_reaches_next_hop_exchange :
    ∃ steps world, Runs.Run (Broadcast.step (hosts pair)) (Broadcast.Start Fresh) steps world ∧
      ∃ neighbour, (pair neighbour).ipAddr = gateway.ipAddr ∧
        framed console (world.states false ⟨0, by decide⟩).ethaddr consolePacket =
          framed console (pair neighbour).hwaddr consolePacket := by
  have started : Broadcast.Start Fresh (⟨fun _ => etharpInit unset, []⟩ :
      Broadcast.World Bool ArpTable Packet) := ⟨fun _ => ⟨unset, rfl⟩, rfl⟩
  obtain ⟨steps, world, run, found⟩ := Runs.run_of_performed (Broadcast.step (hosts pair))
    (fun _ world => lookup (world.states false) gateway.ipAddr = some ⟨0, by decide⟩) started exchange
    (by decide)
  have full : ∀ isGateway, (pair isGateway).hwaddrLen.val = 6 := by decide
  have next : destination (pair false) (some gateway.ipAddr) = .host gateway.ipAddr := by decide
  refine ⟨steps, world, run, frame_reaches_next_hop full run false next none ?_⟩
  simp only [etharpOutput, next, found]
  rfl

end Instances

end Ps2Eth.Etharp
