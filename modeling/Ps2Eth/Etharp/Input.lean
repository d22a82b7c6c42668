import Ps2Eth.Etharp.Cache

/-!
# Packets that arrive and packets that are sent

`etharp_ip_input`, `etharp_arp_input`, `etharp_output` and `etharp_query` of
`common/lwip/etharp.c`, and the `switch` of `ethernetif_input` in `ps2klsi/ps2eth.c`
that calls the first two. Whatever they do to the table they do by the calls of
`Event.calls`, so that a run of packets is a run of these.

A pbuf is taken to have its headers in one piece. Behind its bytes is what the memory
held.
-/

namespace Ps2Eth.Etharp

open CRecords
open Ps2klsi (arpTableSize)

/-- A pbuf: `tot_len`, and the memory at `payload`. -/
structure Packet where
  totLen : Nat
  payload : Memory

/-- The ARP header of a packet. -/
def Packet.arp (p : Packet) : EtharpHdr := EtharpHdr.layout.read p.payload

/-- The Ethernet and IP headers of a packet. -/
def Packet.ip (p : Packet) : EthipHdr := EthipHdr.layout.read p.payload

/-- The Ethernet header of a packet. -/
def Packet.eth (p : Packet) : EthHdr := EthHdr.layout.read p.payload

/-- `ip_addr_maskcmp`: the two addresses are in one network. -/
def ipAddrMaskcmp (first second mask : UInt32) : Bool :=
  Ps2klsi.ipAddrMaskcmp first.toNat second.toNat mask.toNat

/-- `etharp_ip_input`. Only a sender in the own network is entered, under its source
address. -/
def etharpIpInput (netif : Netif) (p : Packet) (table : ArpTable) : ArpTable :=
  if ipAddrMaskcmp p.ip.ip.src netif.ipAddr netif.netmask = false then table
  else updateArpEntry table netif p.ip.ip.src p.ip.eth.src arpInsertFlag

/-- `etharp_arp_input`: the table, and the packet that is passed to `netif->linkoutput`. -/
def etharpArpInput (netif : Netif) (ethaddr : EthAddr) (p : Packet) (table : ArpTable) :
    ArpTable × Option Packet :=
  if p.totLen < EtharpHdr.layout.size then (table, none)
  else
    let hdr := p.arp
    if htons hdr.opcode = arpRequest then
      if netif.ipAddr = 0 then (table, none)
      else
        let table := updateArpEntry table netif hdr.sipaddr hdr.shwaddr 0
        if hdr.dipaddr = netif.ipAddr then
          (table, some { p with payload := replyBytes netif ethaddr p.payload })
        else (table, none)
    else if htons hdr.opcode = arpReply then
      if hdr.dipaddr = netif.ipAddr then
        (updateArpEntry table netif hdr.sipaddr hdr.shwaddr arpInsertFlag, none)
      else
        let table := updateArpEntry table netif hdr.sipaddr hdr.shwaddr 0
        (updateArpEntry table netif hdr.dipaddr hdr.dhwaddr 0, none)
    else (table, none)

/-- What `etharp_query` returns, by which its caller can tell whether a request went
out. -/
inductive QueryResult where
  /-- `NULL`: the address is stable, or there is no entry for it. -/
  | null
  /-- `ERR_MEM`: there was no pbuf for the request. -/
  | errMem
  /-- What `netif->linkoutput` returns for the request. -/
  | sent (request : Packet)

/-- `etharp_query`. `alloc` is the memory of the pbuf that `pbuf_alloc` returns. -/
def etharpQuery (netif : Netif) (ipaddr : UInt32) (alloc : Option Memory) (table : ArpTable) :
    ArpTable × QueryResult :=
  match queryEntry table ipaddr with
  | none => (table, .null)
  | some table =>
    match alloc with
    | none => (table, .errMem)
    | some m => (table, .sent ⟨EtharpHdr.layout.size, requestBytes netif ipaddr m⟩)

/-- Where `etharp_output` sends a packet. -/
inductive Destination where
  /-- To this hardware address. -/
  | hwaddr (dest : EthAddr)
  /-- To the host with this address, which has to be looked up. -/
  | host (ipaddr : UInt32)
  /-- The packet is for another network, and there is no gateway. -/
  | noGateway
deriving DecidableEq

/-- The choice of the destination in `etharp_output`. -/
def destination (netif : Netif) : Option UInt32 → Destination
  | none => .hwaddr fun _ => 0xff
  | some ipaddr =>
    if Ps2klsi.ipAddrIsany (some ipaddr.toNat) ||
        Ps2klsi.ipAddrIsbroadcast ipaddr.toNat netif.netmask.toNat then .hwaddr fun _ => 0xff
    else if Ps2klsi.ipAddrIsmulticast ipaddr.toNat then
      .hwaddr fun k => (Ps2klsi.mcastaddr ipaddr.toNat).getD k 0
    else if ipAddrMaskcmp ipaddr netif.ipAddr netif.netmask = false then
      if netif.gw ≠ 0 then .host netif.gw else .noGateway
    else .host ipaddr

/-- The Ethernet header that `etharp_output` fills in. -/
def framed (netif : Netif) (dest : EthAddr) (q : Packet) : Packet :=
  let ethhdr : EthHdr :=
    { dest := copyAddr netif.hwaddrLen dest q.eth.dest
      src := copyAddr netif.hwaddrLen netif.hwaddr q.eth.src
      type := htons ethtypeIp }
  { q with payload := EthHdr.layout.write ethhdr q.payload }

/-- The result of `etharp_output`: the table, the packet that it returns, and the request
that `etharp_query` sends. -/
structure Output where
  table : ArpTable
  returned : Option Packet
  request : Option Packet

/-- The request that a query sends. -/
def QueryResult.request : QueryResult → Option Packet
  | .sent request => some request
  | _ => none

/-- `etharp_output`. `room` is the packet with room for its header, as `pbuf_header`
leaves it. -/
def etharpOutput (netif : Netif) (room : Option Packet) (ipaddr : Option UInt32)
    (alloc : Option Memory) (table : ArpTable) : Output :=
  match room with
  | none => ⟨table, none, none⟩
  | some q =>
    match destination netif ipaddr with
    | .noGateway => ⟨table, none, none⟩
    | .hwaddr dest => ⟨table, some (framed netif dest q), none⟩
    | .host ipaddr =>
      match lookup table ipaddr with
      | some i => ⟨table, some (framed netif (table i).ethaddr q), none⟩
      | none =>
        let query := etharpQuery netif ipaddr alloc table
        ⟨query.1, none, query.2.request⟩

/-- What happens at the interface. -/
inductive Event where
  /-- `etharp_tmr` -/
  | tmr
  /-- `low_level_input` returned a packet to `ethernetif_input`. -/
  | input (netif : Netif) (p : Packet)
  /-- `ethernetif_output` is called for a packet. -/
  | output (netif : Netif) (room : Option Packet) (ipaddr : Option UInt32) (alloc : Option Memory)

/-- The table after an event, and the packets that are sent, in order. -/
def Event.step (table : ArpTable) : Event → ArpTable × List Packet
  | .tmr => (etharpTmr table, [])
  | .input netif p =>
    if htons p.eth.type = ethtypeIp then (etharpIpInput netif p table, [])
    else if htons p.eth.type = ethtypeArp then
      let arp := etharpArpInput netif netif.hwaddr p table
      (arp.1, arp.2.toList)
    else (table, [])
  | .output netif room ipaddr alloc =>
    let output := etharpOutput netif room ipaddr alloc table
    (output.table, output.returned.toList ++ output.request.toList)

/-- The addresses that an IP packet shows: those of its sender, if that is a neighbour. -/
def shownByIp (netif : Netif) (p : Packet) : List (UInt32 × EthAddr) :=
  if ipAddrMaskcmp p.ip.ip.src netif.ipAddr netif.netmask = false then []
  else [(p.ip.ip.src, p.ip.eth.src)]

/-- The addresses that an ARP packet shows: those of its sender, and in a reply to
another host also those of that host. -/
def shownByArp (netif : Netif) (p : Packet) : List (UInt32 × EthAddr) :=
  if p.totLen < EtharpHdr.layout.size then []
  else if htons p.arp.opcode = arpRequest then
    if netif.ipAddr = 0 then [] else [(p.arp.sipaddr, p.arp.shwaddr)]
  else if htons p.arp.opcode = arpReply then
    if p.arp.dipaddr = netif.ipAddr then [(p.arp.sipaddr, p.arp.shwaddr)]
    else [(p.arp.sipaddr, p.arp.shwaddr), (p.arp.dipaddr, p.arp.dhwaddr)]
  else []

/-- The addresses that a packet shows to an interface. -/
def shown (netif : Netif) (p : Packet) : List (UInt32 × EthAddr) :=
  if htons p.eth.type = ethtypeIp then shownByIp netif p
  else if htons p.eth.type = ethtypeArp then shownByArp netif p
  else []

/-- The calls that change the table in an event. -/
def Event.calls : Event → List Call
  | .tmr => [.tmr]
  | .input netif p => (shown netif p).map fun pair => .update netif pair.1 pair.2 0
  | .output _ none _ _ => []
  | .output netif (some _) ipaddr _ =>
    match destination netif ipaddr with
    | .host ipaddr => [.query ipaddr]
    | _ => []

/-- The table and the packets sent after events in turn. -/
def runEvents (events : List Event) (table : ArpTable) : ArpTable × List Packet :=
  events.foldl (fun before event =>
    ((event.step before.1).1, before.2 ++ (event.step before.1).2)) (table, [])

/-- What is heard in an event. -/
def Event.heard (hwaddrLen : Nat) : Event → List (AgedMap.Event UInt32 (List UInt8))
  | .tmr => [.tick]
  | .input netif p =>
    ((shown netif p).filter fun pair => pair.1 ≠ 0).map fun pair => .hear pair.1 (known hwaddrLen pair.2)
  | .output _ _ _ _ => []

/-- The next hop of a packet that is to be sent. -/
def Event.hops : Event → List UInt32
  | .output netif (some _) ipaddr _ =>
    match destination netif ipaddr with
    | .host ipaddr => [ipaddr]
    | _ => []
  | _ => []

/-- What is asked for in an event. -/
def Event.asked : Event → List (AgedMap.Event UInt32 Unit)
  | .tmr => [.tick]
  | event => event.hops.map fun ipaddr => .hear ipaddr ()

/-- The addresses that an event can bring into the table. -/
def Event.names : Event → List UInt32
  | .input netif p => ((shown netif p).map Prod.fst).filter fun ipaddr => ipaddr ≠ 0
  | event => event.hops

/-- What is named in an event. -/
def Event.named : Event → List (AgedMap.Event UInt32 Unit)
  | .tmr => [.tick]
  | event => event.names.map fun ipaddr => .hear ipaddr ()

/-- The interface of an event has hardware addresses of this length. -/
def Event.Uses (hwaddrLen : Nat) : Event → Prop
  | .tmr => True
  | .input netif _ => netif.hwaddrLen.val = hwaddrLen
  | .output netif _ _ _ => netif.hwaddrLen.val = hwaddrLen

variable {table : ArpTable}

/-- Whether an address may be inserted makes no difference. -/
theorem updateArpEntry_flags (table : ArpTable) (netif : Netif) (ipaddr : UInt32) (ethaddr : EthAddr)
    (flags : UInt8) :
    updateArpEntry table netif ipaddr ethaddr flags = updateArpEntry table netif ipaddr ethaddr 0 := by
  rw [updateArpEntry_eq, updateArpEntry_eq]

/-- `etharp_ip_input` makes one update for the pair that an IP packet shows, or none. -/
theorem etharpIpInput_calls (netif : Netif) (p : Packet) (table : ArpTable) :
    etharpIpInput netif p table =
      runCalls ((shownByIp netif p).map fun pair => .update netif pair.1 pair.2 0) table := by
  rw [etharpIpInput, shownByIp]
  split
  case isTrue => rfl
  case isFalse => exact updateArpEntry_flags ..

/-- `etharp_arp_input` makes one update for the pair that an ARP packet shows, or none. -/
theorem etharpArpInput_calls (netif : Netif) (ethaddr : EthAddr) (p : Packet) (table : ArpTable) :
    (etharpArpInput netif ethaddr p table).1 =
      runCalls ((shownByArp netif p).map fun pair => .update netif pair.1 pair.2 0) table := by
  simp only [etharpArpInput, shownByArp]
  by_cases short : p.totLen < EtharpHdr.layout.size
  · rw [if_pos short, if_pos short]
    rfl
  · rw [if_neg short, if_neg short]
    by_cases request : htons p.arp.opcode = arpRequest
    · rw [if_pos request, if_pos request]
      by_cases unset : netif.ipAddr = 0
      · rw [if_pos unset, if_pos unset]
        rfl
      · rw [if_neg unset, if_neg unset]
        by_cases own : p.arp.dipaddr = netif.ipAddr
        · rw [if_pos own]
          rfl
        · rw [if_neg own]
          rfl
    · rw [if_neg request, if_neg request]
      by_cases reply : htons p.arp.opcode = arpReply
      · rw [if_pos reply, if_pos reply]
        by_cases own : p.arp.dipaddr = netif.ipAddr
        · rw [if_pos own, if_pos own]
          exact updateArpEntry_flags ..
        · rw [if_neg own, if_neg own]
          rfl
      · rw [if_neg reply, if_neg reply]
        rfl

/-- An address that is answered for is not asked for. -/
theorem queryTable_of_lookup {ipaddr : UInt32} {i : Fin arpTableSize}
    (found : lookup table ipaddr = some i) : queryTable table ipaddr = table := by
  obtain ⟨stable, same⟩ := lookup_some found
  have used : (entryFor table ipaddr).isSome = true := by
    by_contra unused
    have absent := entryFor_none.mp (Option.not_isSome_iff_eq_none.mp unused) i (by rw [stable]; decide)
    exact absent same
  rw [queryTable_eq, if_pos used]

/-- The table that a query leaves does not depend on whether there is a pbuf. -/
theorem etharpQuery_table (netif : Netif) (ipaddr : UInt32) (alloc : Option Memory) (table : ArpTable) :
    (etharpQuery netif ipaddr alloc table).1 = queryTable table ipaddr := by
  rw [etharpQuery, queryTable]
  cases queryEntry table ipaddr with
  | none => rfl
  | some next =>
    cases alloc with
    | none => rfl
    | some m => rfl

/-- An event changes the table by its calls. -/
theorem step_table (table : ArpTable) (event : Event) :
    (event.step table).1 = runCalls event.calls table := by
  cases event with
  | tmr => rfl
  | input netif p =>
    rw [Event.step, Event.calls, shown]
    split
    case isTrue => exact etharpIpInput_calls netif p table
    case isFalse =>
      split
      case isTrue => exact etharpArpInput_calls netif netif.hwaddr p table
      case isFalse => rfl
  | output netif room ipaddr alloc =>
    cases room with
    | none => rfl
    | some q =>
      rw [Event.step, Event.calls, etharpOutput]
      cases destination netif ipaddr with
      | hwaddr dest => rfl
      | noGateway => rfl
      | host hop =>
        cases found : lookup table hop with
        | some i =>
          simp only [found]
          exact (queryTable_of_lookup found).symm
        | none =>
          simp only [found]
          exact etharpQuery_table netif hop alloc table

/-- The last event happens to the table that the others left. -/
theorem runEvents_snoc (events : List Event) (last : Event) (table : ArpTable) :
    (runEvents (events ++ [last]) table).1 = (last.step (runEvents events table).1).1 := by
  rw [runEvents, List.foldl_append, List.foldl_cons, List.foldl_nil, runEvents]

/-- A run of events is a run of calls. -/
theorem runEvents_table (events : List Event) (table : ArpTable) :
    (runEvents events table).1 = runCalls (events.flatMap Event.calls) table := by
  induction events using List.reverseRecOn with
  | nil => rfl
  | append_singleton events last inductionHypothesis =>
    rw [runEvents_snoc, step_table, inductionHypothesis, List.flatMap_append, List.flatMap_singleton,
      runCalls, runCalls, ← List.foldl_append, runCalls]

/-- The calls of an event tell what is heard in it. -/
theorem heardIn_calls (hwaddrLen : Nat) (event : Event) :
    heardIn hwaddrLen event.calls = event.heard hwaddrLen := by
  cases event with
  | tmr => rfl
  | input netif p =>
    rw [Event.calls, Event.heard, heardIn]
    induction shown netif p with
    | nil => rfl
    | cons pair rest inductionHypothesis =>
      rw [List.map_cons, List.flatMap_cons, inductionHypothesis, Call.heard]
      by_cases zero : pair.1 = 0
      · rw [if_pos zero, List.filter_cons_of_neg (by simpa using zero), List.nil_append]
      · rw [if_neg zero, List.filter_cons_of_pos (by simpa using zero), List.map_cons,
          List.singleton_append]
  | output netif room ipaddr alloc =>
    cases room with
    | none => rfl
    | some q =>
      rw [Event.calls]
      cases destination netif ipaddr with
      | hwaddr dest => rfl
      | noGateway => rfl
      | host hop => rfl

/-- The calls of an event ask for its next hop. -/
theorem askedIn_calls (event : Event) : askedIn event.calls = event.asked := by
  cases event with
  | tmr => rfl
  | input netif p =>
    rw [Event.calls, askedIn, List.flatMap_map]
    exact List.flatMap_eq_nil_iff.mpr fun _ _ => rfl
  | output netif room ipaddr alloc =>
    cases room with
    | none => rfl
    | some q =>
      simp only [Event.calls, Event.asked, Event.hops]
      cases destination netif ipaddr with
      | hwaddr dest => rfl
      | noGateway => rfl
      | host hop => rfl

/-- The calls of an event bring in the addresses that it names. -/
theorem namedIn_calls (event : Event) : namedIn event.calls = event.named := by
  cases event with
  | tmr => rfl
  | input netif p =>
    simp only [Event.calls, Event.named, Event.names, namedIn]
    induction shown netif p with
    | nil => rfl
    | cons pair rest inductionHypothesis =>
      rw [List.map_cons, List.flatMap_cons, inductionHypothesis, Call.named, List.map_cons]
      by_cases zero : pair.1 = 0
      · rw [if_pos zero, List.filter_cons_of_neg (by simpa using zero), List.nil_append]
      · rw [if_neg zero, List.filter_cons_of_pos (by simpa using zero), List.map_cons,
          List.singleton_append]
  | output netif room ipaddr alloc =>
    cases room with
    | none => rfl
    | some q =>
      simp only [Event.calls, Event.named, Event.names, Event.hops]
      cases destination netif ipaddr with
      | hwaddr dest => rfl
      | noGateway => rfl
      | host hop => rfl

/-- The updates that an event leads to are made with its interface. -/
theorem uses_calls {hwaddrLen : Nat} {event : Event} (uses : event.Uses hwaddrLen) :
    ∀ call ∈ event.calls, call.Uses hwaddrLen := by
  cases event with
  | tmr =>
    intro call member
    obtain rfl := List.mem_singleton.mp member
    exact trivial
  | input netif p =>
    intro call member
    obtain ⟨pair, -, rfl⟩ := List.mem_map.mp member
    exact uses
  | output netif room ipaddr alloc =>
    cases room with
    | none =>
      intro call member
      cases member
    | some q =>
      rw [Event.calls]
      split
      case h_1 hop _ =>
        intro call member
        obtain rfl := List.mem_singleton.mp member
        exact trivial
      case h_2 =>
        intro call member
        cases member

/-- What was heard in a run. -/
def heardOf (hwaddrLen : Nat) (events : List Event) : List (AgedMap.Event UInt32 (List UInt8)) :=
  events.flatMap (Event.heard hwaddrLen)

/-- The table after a run that starts with `etharp_init`. -/
def tableAfter (events : List Event) (before : ArpTable) : ArpTable :=
  (runEvents events (etharpInit before)).1

/-- The table after a run is that after all the calls that its events make. -/
theorem tableAfter_calls (events : List Event) (before : ArpTable) :
    tableAfter events before = runCalls (events.flatMap Event.calls) (etharpInit before) :=
  runEvents_table events (etharpInit before)

/-- All calls of a run are made with interfaces of the one length. -/
theorem uses_flatMap {hwaddrLen : Nat} {events : List Event}
    (uses : ∀ event ∈ events, event.Uses hwaddrLen) :
    ∀ call ∈ events.flatMap Event.calls, call.Uses hwaddrLen := by
  intro call member
  obtain ⟨event, among, called⟩ := List.mem_flatMap.mp member
  exact uses_calls (uses event among) call called

/-- After every run each stable entry has what was heard last of its address, and its age. -/
theorem answers_tableAfter {hwaddrLen : Nat} {events : List Event}
    (uses : ∀ event ∈ events, event.Uses hwaddrLen) (before : ArpTable) :
    Answers hwaddrLen (tableAfter events before)
      (AgedMap.after arpMaxage.toNat (heardOf hwaddrLen events)) := by
  have answers := runCalls_answers (uses_flatMap uses) before
  have heard (event : Event) : (event.calls.flatMap fun call => call.heard hwaddrLen) =
      event.heard hwaddrLen := heardIn_calls hwaddrLen event
  rw [tableAfter_calls, heardOf]
  simpa only [heardIn, List.flatMap_assoc, heard] using answers

/-- After every run of timer ticks, packets that arrive and packets that are sent, the
entries in use are for distinct addresses, and none has outlived its time.

Proof: a run of events is a run of calls on the table, and each of the three functions
that change it keeps the entries distinct and young. -/
theorem entries_in_use_wellFormed (events : List Event) (before : ArpTable) :
    WellFormed (tableAfter events before) := by
  rw [tableAfter_calls]
  exact runCalls_wellFormed _ before

/-- An entry is pending only if a packet for its address was to be sent less than two
ticks ago.

Proof: the run of calls keeps that every pending entry is waiting for an answer to
something asked, by induction on the run; ticks age the question as they age the entry. -/
theorem pending_was_asked (events : List Event) (before : ArpTable) {i : Fin arpTableSize}
    (pending : (tableAfter events before i).state = .pending) :
    ∃ age < arpMaxpending.toNat, AgedMap.HeardLast (events.flatMap Event.asked)
      (tableAfter events before i).ipaddr () age := by
  have awaits := runCalls_awaits (events.flatMap Event.calls) before
  have asked (event : Event) : event.calls.flatMap Call.asked = event.asked := askedIn_calls event
  rw [← tableAfter_calls] at awaits
  simp only [askedIn, List.flatMap_assoc, asked] at awaits
  obtain ⟨age, -, wanted⟩ := awaits i pending
  obtain ⟨last, young⟩ := (AgedMap.after_eq_some (by decide) _ _ _ _).mp wanted
  exact ⟨age, young, last⟩

/-- A packet for a single host that is sent after any run goes to the hardware address
that was heard last of its next hop, less than 120 ticks ago.

Proof: the entry that is found is stable, and what stands in it is what the aged map
answers for its address. The bound on the age is the one that `etharp_tmr` keeps. -/
theorem unicast_goes_to_heardLast {hwaddrLen : Nat} {events : List Event}
    (uses : ∀ event ∈ events, event.Uses hwaddrLen) (before : ArpTable) {netif : Netif}
    {q sent : Packet} {ipaddr : Option UInt32} {hop : UInt32}
    (host : destination netif ipaddr = .host hop) (alloc : Option Memory)
    (returned : (etharpOutput netif (some q) ipaddr alloc (tableAfter events before)).returned =
      some sent) :
    ∃ dest, ∃ age < arpMaxage.toNat, sent = framed netif dest q ∧
      AgedMap.HeardLast (heardOf hwaddrLen events) hop (known hwaddrLen dest) age := by
  simp only [etharpOutput, host] at returned
  split at returned
  case h_1 i found =>
    obtain ⟨stable, rfl⟩ := lookup_some found
    have answered := answers_tableAfter uses before i stable
    obtain ⟨last, young⟩ := (AgedMap.after_eq_some (by decide) _ _ _ _).mp answered
    exact ⟨_, _, young, (Option.some.inj returned).symm, last⟩
  case h_2 => cases returned

/-- What was named in a run. -/
def namedOf (events : List Event) : List (AgedMap.Event UInt32 Unit) := events.flatMap Event.named

/-- After every run each address that something is known of has an entry, or was crowded
out. -/
theorem kept_tableAfter {hwaddrLen : Nat} {events : List Event}
    (uses : ∀ event ∈ events, event.Uses hwaddrLen) (before : ArpTable) :
    Kept (tableAfter events before)
      (AgedMap.after arpMaxage.toNat (heardOf hwaddrLen events)) (namedOf events) := by
  have kept := runCalls_kept (uses_flatMap uses) before
  have heard (event : Event) : (event.calls.flatMap fun call => call.heard hwaddrLen) =
      event.heard hwaddrLen := heardIn_calls hwaddrLen event
  have named (event : Event) : event.calls.flatMap Call.named = event.named := namedIn_calls event
  rw [tableAfter_calls, heardOf, namedOf]
  simpa only [heardIn, namedIn, List.flatMap_assoc, heard, named] using kept

/-- What was heard last of an address is answered for 120 ticks, unless ten other
addresses were heard or asked for since then, or less than two ticks before.

Proof: the table keeps the answer, or it was crowded out by a full table of younger
entries for other addresses, each of which was named since. The second case is what
`find_arp_entry` does when no entry is free. -/
theorem lost_to_ten_others {hwaddrLen : Nat} {events : List Event}
    (uses : ∀ event ∈ events, event.Uses hwaddrLen) (before : ArpTable) {ipaddr : UInt32}
    {value : List UInt8} {age : Nat}
    (heard : AgedMap.HeardLast (heardOf hwaddrLen events) ipaddr value age)
    (young : age < arpMaxage.toNat) :
    answerFor hwaddrLen (tableAfter events before) ipaddr = some (value, age) ∨
      ∃ others : Finset UInt32, others.card = arpTableSize ∧ ipaddr ∉ others ∧
        ∀ other ∈ others, ∃ since ≤ age + 1, AgedMap.HeardLast (namedOf events) other () since := by
  have held := (AgedMap.after_eq_some (by decide) _ _ _ _).mpr ⟨heard, young⟩
  rcases kept_tableAfter uses before ipaddr (value, age) held with placed | crowded
  · rw [answerFor_of_placed (answers_tableAfter uses before) placed]
    exact Or.inl held
  · obtain ⟨others, card, apart, recent⟩ := crowded
    refine Or.inr ⟨others, card, apart, ?_⟩
    intro other member
    obtain ⟨_, since, atMost, last⟩ := recent other member
    exact ⟨since, atMost, last⟩

/-- What is heard is heard of an address that is named. -/
theorem names_of_heard {hwaddrLen : Nat} {event : Event} {ipaddr : UInt32} {value : List UInt8}
    (heard : .hear ipaddr value ∈ event.heard hwaddrLen) : ipaddr ∈ event.names := by
  cases event with
  | tmr =>
    rw [Event.heard, List.mem_singleton] at heard
    cases heard
  | input netif p =>
    obtain ⟨pair, member, same⟩ := List.mem_map.mp heard
    obtain ⟨rfl, -⟩ := AgedMap.Event.hear.inj same
    obtain ⟨isShown, notZero⟩ := List.mem_filter.mp member
    exact List.mem_filter.mpr ⟨List.mem_map_of_mem isShown, notZero⟩
  | output netif room ipaddr alloc => cases heard

/-- An address that an event told of is among those it names. -/
theorem names_of_named {event : Event} {ipaddr : UInt32} (named : .hear ipaddr () ∈ event.named) :
    ipaddr ∈ event.names := by
  cases event with
  | tmr =>
    rw [Event.named, List.mem_singleton] at named
    cases named
  | input netif p =>
    obtain ⟨_, member, same⟩ := List.mem_map.mp named
    obtain ⟨rfl, -⟩ := AgedMap.Event.hear.inj same
    exact member
  | output netif room ipaddr alloc =>
    obtain ⟨_, member, same⟩ := List.mem_map.mp named
    obtain ⟨rfl, -⟩ := AgedMap.Event.hear.inj same
    exact member

/-- As long as no more than ten addresses are in play, the table answers exactly as if it
kept all that was heard in the last 120 ticks.

Proof: an answer of the table is always one of the map. The other way round, an address
that was crowded out would need ten others, and with the address itself these are more
than there are in play. -/
theorem answers_all_of_ten {hwaddrLen : Nat} {events : List Event}
    (uses : ∀ event ∈ events, event.Uses hwaddrLen) (before : ArpTable) {keys : Finset UInt32}
    (named : ∀ event ∈ events, ∀ ipaddr ∈ event.names, ipaddr ∈ keys)
    (few : keys.card ≤ arpTableSize) (ipaddr : UInt32) :
    answerFor hwaddrLen (tableAfter events before) ipaddr =
      AgedMap.after arpMaxage.toNat (heardOf hwaddrLen events) ipaddr := by
  have answers := answers_tableAfter uses before
  cases held : AgedMap.after arpMaxage.toNat (heardOf hwaddrLen events) ipaddr with
  | none =>
    by_contra answered
    obtain ⟨value, more⟩ := Option.ne_none_iff_exists'.mp answered
    rw [answerFor_of_answers answers more] at held
    cases held
  | some value =>
    rcases kept_tableAfter uses before ipaddr value held with placed | crowded
    · rw [answerFor_of_placed answers placed, held]
    · obtain ⟨⟨early, late, split, -⟩, -⟩ := (AgedMap.after_eq_some (by decide) _ _ _ _).mp held
      have told : .hear ipaddr value.1 ∈ heardOf hwaddrLen events := by
        rw [split]
        exact List.mem_append_right _ (List.mem_cons_self ..)
      obtain ⟨event, among, heardThen⟩ := List.mem_flatMap.mp told
      have member := named event among ipaddr (names_of_heard heardThen)
      have drawn : ∀ other value, .hear other value ∈ namedOf events → other ∈ keys := by
        intro other _ named'
        obtain ⟨event, among, namedThen⟩ := List.mem_flatMap.mp named'
        exact named event among other (names_of_named namedThen)
      have more := crowded.lt_card drawn member
      omega

section Instances

/-- 192.168.0.80, in a network with the gateway 192.168.0.1. -/
def console : Netif where
  ipAddr := 0x5000a8c0
  netmask := 0x00ffffff
  gw := 0x0100a8c0
  hwaddrLen := 6
  hwaddr := fun k => [0x00, 0x02, 0xe3, 0x01, 0x82, 0x72].getD k 0

/-- Another host in the network of the console, which has the address that the console's
packets go to. -/
def gateway : Netif where
  ipAddr := 0x0100a8c0
  netmask := 0x00ffffff
  gw := 0
  hwaddrLen := 6
  hwaddr := fun k => [0x00, 0xd0, 0x59, 0xb5, 0xf0, 0x84].getD k 0

/-- A table of zeros, as it stands before `etharp_init`. -/
def unset : ArpTable := fun _ => ⟨0, fun _ => 0, .empty, 0⟩

/-- The reply of the gateway to a request of the console. -/
def gatewayReply : Packet where
  totLen := 42
  payload := EtharpHdr.layout.bytes
    (wholeReply gateway gateway.hwaddr (wholeRequest console gateway.ipAddr))

/-- An IP packet of the console. -/
def consolePacket : Packet where
  totLen := 34
  payload := EthipHdr.layout.bytes
    ⟨⟨fun _ => 0, fun _ => 0, 0⟩, ⟨0x45, 0, 0, 0, 0, 0, console.ipAddr, gateway.ipAddr⟩⟩

/-- A packet for the gateway makes it awaited. -/
theorem pending_was_asked_console :
    ∃ age < arpMaxpending.toNat,
      AgedMap.HeardLast ([Event.output console (some consolePacket) (some gateway.ipAddr) none].flatMap
        Event.asked) (tableAfter [.output console (some consolePacket) (some gateway.ipAddr) none]
          unset ⟨0, by decide⟩).ipaddr () age :=
  pending_was_asked _ unset (by decide)

/-- Both hosts have hardware addresses of six bytes. -/
theorem console_uses : ∀ event ∈ [Event.input console gatewayReply], event.Uses 6 := by
  intro event member
  rw [List.mem_singleton.mp member]
  rfl

/-- With the reply, a packet for the gateway is sent to its hardware address. -/
theorem unicast_goes_to_heardLast_console :
    ∃ dest, ∃ age < arpMaxage.toNat,
      framed console gateway.hwaddr consolePacket = framed console dest consolePacket ∧
        AgedMap.HeardLast (heardOf 6 [.input console gatewayReply]) gateway.ipAddr (known 6 dest) age := by
  have found : lookup (tableAfter [.input console gatewayReply] unset) gateway.ipAddr =
      some ⟨0, by decide⟩ := by decide
  have next : destination console (some gateway.ipAddr) = .host gateway.ipAddr := by decide
  have stored : (tableAfter [.input console gatewayReply] unset ⟨0, by decide⟩).ethaddr =
      gateway.hwaddr := by decide
  exact unicast_goes_to_heardLast console_uses unset next none
    (by simp only [etharpOutput, next, found, stored])

/-- The only address that the console has heard has not been lost. -/
theorem lost_to_ten_others_console :
    answerFor 6 (tableAfter [.input console gatewayReply] unset) gateway.ipAddr =
        some (known 6 gateway.hwaddr, 0) ∨
      ∃ others : Finset UInt32, others.card = arpTableSize ∧ gateway.ipAddr ∉ others ∧
        ∀ other ∈ others, ∃ since ≤ 0 + 1,
          AgedMap.HeardLast (namedOf [.input console gatewayReply]) other () since :=
  lost_to_ten_others console_uses unset
    ((AgedMap.after_eq_some (by decide : 0 < arpMaxage.toNat) _ _ _ _).mp (by decide)).1 (by decide)

/-- The reply of the gateway names the gateway's address and no other. -/
theorem consoleNames : (Event.input console gatewayReply).names = [gateway.ipAddr] := by decide

/-- The only address that the console has heard is answered as it was heard. -/
theorem answers_all_of_ten_console :
    answerFor 6 (tableAfter [.input console gatewayReply] unset) gateway.ipAddr =
      AgedMap.after arpMaxage.toNat (heardOf 6 [.input console gatewayReply]) gateway.ipAddr :=
  answers_all_of_ten console_uses unset
    (by
      intro event member ipaddr name
      rw [List.mem_singleton.mp member, consoleNames] at name
      rwa [Finset.mem_singleton, ← List.mem_singleton] :
      ∀ event ∈ [Event.input console gatewayReply], ∀ ipaddr ∈ event.names,
        ipaddr ∈ ({gateway.ipAddr} : Finset UInt32))
    (by decide) gateway.ipAddr

end Instances

end Ps2Eth.Etharp
