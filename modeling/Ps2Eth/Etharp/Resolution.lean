import Ps2Eth.Etharp.Network

/-!
# The exchange that resolves an address

A host that has no answer for its next hop sends a request. The host that has the
address answers it with a reply in the same pbuf, and when that arrives the first host
has its answer. The second host learns the addresses of the first on the way.

The reply is of use only while the entry of the request is there. A pending entry is not
given to another address; it ends with a tick that finds it too old, or becomes stable when
something is heard of its address.
-/

namespace Ps2Eth.Etharp

open CRecords
open Ps2klsi (arpTableSize)

variable {table : ArpTable}

/-- In a well-formed table the stable entry for an address is the one that is found. -/
theorem lookup_of_stable (wellFormed : WellFormed table) {i : Fin arpTableSize}
    (stable : (table i).state = .stable) : lookup table (table i).ipaddr = some i := by
  cases found : lookup table (table i).ipaddr with
  | none => exact absurd rfl (lookup_none.mp found i stable)
  | some j =>
    obtain ⟨stableJ, same⟩ := lookup_some found
    have notEmpty (k : Fin arpTableSize) (isStable : (table k).state = .stable) :
        (table k).state ≠ .empty := by
      rw [isStable]
      decide
    rw [wellFormed.distinct j i (notEmpty j stableJ) (notEmpty i stable) same]

/-- An address that was just updated is answered for. -/
theorem answerFor_update (wellFormed : WellFormed table) (netif : Netif) {ipaddr : UInt32}
    (notZero : ipaddr ≠ 0) (placed : placeFor table ipaddr ≠ none) (ethaddr : EthAddr) (flags : UInt8) :
    answerFor netif.hwaddrLen (updateArpEntry table netif ipaddr ethaddr flags) ipaddr =
      some (known netif.hwaddrLen ethaddr, 0) := by
  obtain ⟨i, place⟩ := Option.ne_none_iff_exists'.mp placed
  have updated : updateArpEntry table netif ipaddr ethaddr flags =
      Function.update table i (answer netif ipaddr ethaddr (table i).ethaddr) := by
    simp only [updateArpEntry_eq, if_neg notZero, place]
  have entry : updateArpEntry table netif ipaddr ethaddr flags i =
      answer netif ipaddr ethaddr (table i).ethaddr := by
    rw [updated, Function.update_self]
  have found := lookup_of_stable (i := i) (wellFormed_update wellFormed netif ipaddr ethaddr flags)
    (by rw [entry]; rfl)
  have address : (updateArpEntry table netif ipaddr ethaddr flags i).ipaddr = ipaddr := by
    rw [entry]
    rfl
  rw [address] at found
  rw [answerFor, found, Option.map_some, entry, answer, known_copyAddr]
  rfl

/-- An entry is pending for the address. -/
def Waits (table : ArpTable) (ipaddr : UInt32) : Prop :=
  ∃ i, (table i).state = .pending ∧ (table i).ipaddr = ipaddr

/-- What is heard of an address that is waited for has a place. -/
theorem Waits.placed {ipaddr : UInt32} (waits : Waits table ipaddr) : placeFor table ipaddr ≠ none := by
  obtain ⟨i, pending, same⟩ := waits
  intro nowhere
  obtain ⟨unused, -⟩ := Option.or_eq_none_iff.mp nowhere
  exact entryFor_none.mp unused i (by rw [pending]; decide) same

/-- Where a request is sent, its address is waited for. -/
theorem queryEntry_some {ipaddr : UInt32} {next : ArpTable} (entry : queryEntry table ipaddr = some next) :
    next = queryTable table ipaddr ∧ Waits next ipaddr := by
  constructor
  · rw [queryTable, entry]
    rfl
  · rw [queryEntry] at entry
    split at entry
    case h_1 i found =>
      split at entry
      case isTrue pending =>
        rw [← Option.some.inj entry]
        exact ⟨i, pending, (entryFor_some found).1⟩
      case isFalse => cases entry
    case h_2 =>
      split at entry
      case h_1 => cases entry
      case h_2 i _ =>
        rw [← Option.some.inj entry]
        exact ⟨i, by rw [Function.update_self]; exact ⟨rfl, rfl⟩⟩

/-- A call is neither a tick nor an update for the address. -/
def Call.Leaves (ipaddr : UInt32) : Call → Prop
  | .tmr => False
  | .update _ other _ _ => other ≠ ipaddr
  | .query _ => True

/-- An event is no tick, and shows nothing of the address. -/
def Event.Leaves (ipaddr : UInt32) : Event → Prop
  | .tmr => False
  | .input netif p => ∀ pair ∈ shown netif p, pair.1 ≠ ipaddr
  | .output _ _ _ _ => True

/-- A pending entry is not taken for another address: `find_arp_entry` passes it over. -/
theorem waits_run (wellFormed : WellFormed table) {ipaddr : UInt32} (waits : Waits table ipaddr)
    {call : Call} (leaves : call.Leaves ipaddr) : Waits (call.run table) ipaddr := by
  obtain ⟨i, pending, same⟩ := waits
  have kept {j : Fin arpTableSize} {entry : EtharpEntry} (other : j ≠ i) :
      Waits (Function.update table j entry) ipaddr := by
    refine ⟨i, ?_⟩
    rw [Function.update_of_ne other.symm]
    exact ⟨pending, same⟩
  cases call with
  | tmr => exact absurd leaves id
  | update netif other ethaddr flags =>
    rw [Call.run, updateArpEntry_eq]
    split
    case isTrue => exact ⟨i, pending, same⟩
    case isFalse =>
      split
      case h_1 => exact ⟨i, pending, same⟩
      case h_2 j place =>
        apply kept
        rintro rfl
        exact leaves (((placeFor_some wellFormed place).2 pending).symm.trans same)
  | query other =>
    rw [Call.run, queryTable_eq]
    split
    case isTrue => exact ⟨i, pending, same⟩
    case isFalse =>
      split
      case h_1 => exact ⟨i, pending, same⟩
      case h_2 j available =>
        apply kept
        rintro rfl
        exact (findArpEntry_some available).notPending pending

/-- The calls of such an event are such calls. -/
theorem leaves_calls {ipaddr : UInt32} {event : Event} (leaves : event.Leaves ipaddr) :
    ∀ call ∈ event.calls, call.Leaves ipaddr := by
  cases event with
  | tmr => exact absurd leaves id
  | input netif p =>
    intro call member
    obtain ⟨pair, isShown, rfl⟩ := List.mem_map.mp member
    exact leaves pair isShown
  | output netif room ipaddr alloc =>
    cases room with
    | none =>
      intro call member
      cases member
    | some q =>
      rw [Event.calls]
      split
      case h_1 hop _ =>
        intro call member
        obtain rfl := List.mem_singleton.mp member
        exact trivial
      case h_2 =>
        intro call member
        cases member

/-- Through a run of such calls the address is waited for.

Proof: by induction on the calls, each of which keeps the table well formed as well. -/
theorem waits_runCalls {ipaddr : UInt32} (calls : List Call)
    (leaves : ∀ call ∈ calls, call.Leaves ipaddr) (wellFormed : WellFormed table)
    (waits : Waits table ipaddr) : Waits (runCalls calls table) ipaddr := by
  induction calls generalizing table with
  | nil => exact waits
  | cons call rest inductionHypothesis =>
    have first := leaves call (List.mem_cons_self ..)
    exact inductionHypothesis (fun later member => leaves later (List.mem_cons_of_mem _ member))
      (wellFormed_run wellFormed call) (waits_run wellFormed waits first)

/-- The table stays well formed in any run of calls, wherever that begins. -/
theorem wellFormed_runCalls (wellFormed : WellFormed table) (calls : List Call) :
    WellFormed (runCalls calls table) := by
  induction calls generalizing table with
  | nil => exact wellFormed
  | cons call rest inductionHypothesis => exact inductionHypothesis (wellFormed_run wellFormed call)

/-- So does it in any run of events. -/
theorem wellFormed_runEvents (wellFormed : WellFormed table) (events : List Event) :
    WellFormed (runEvents events table).1 := by
  rw [runEvents_table]
  exact wellFormed_runCalls wellFormed _

/-- Until a tick, or until something is heard of it, an address is waited for. -/
theorem waits_runEvents (wellFormed : WellFormed table) {ipaddr : UInt32}
    (waits : Waits table ipaddr) {events : List Event}
    (leaves : ∀ event ∈ events, event.Leaves ipaddr) :
    Waits (runEvents events table).1 ipaddr := by
  rw [runEvents_table]
  refine waits_runCalls _ ?_ wellFormed waits
  intro call member
  obtain ⟨event, among, called⟩ := List.mem_flatMap.mp member
  exact leaves_calls (leaves event among) call called

/-- What a packet that is being sent has asked for. -/
theorem output_request {netif : Netif} {q request : Packet} {ipaddr : Option UInt32} {hop : UInt32}
    (next : destination netif ipaddr = .host hop) {alloc : Option Memory}
    (sent : (etharpOutput netif (some q) ipaddr alloc table).request = some request) :
    (∃ m, request = ⟨EtharpHdr.layout.size, requestBytes netif hop m⟩) ∧
      (etharpOutput netif (some q) ipaddr alloc table).table = queryTable table hop ∧
      Waits (queryTable table hop) hop := by
  simp only [etharpOutput, next] at sent ⊢
  split at sent
  case h_1 => cases sent
  case h_2 =>
    simp only [etharpQuery_table]
    rw [etharpQuery] at sent
    split at sent
    case h_1 => cases sent
    case h_2 asked entry =>
      obtain ⟨rfl, waits⟩ := queryEntry_some entry
      split at sent
      case h_1 => cases sent
      case h_2 m =>
        exact ⟨⟨m, (Option.some.inj sent).symm⟩, trivial, waits⟩

/-- A host that gets a request for its own address answers it. -/
theorem step_request (netif : Netif) {p : Packet} (long : EtharpHdr.layout.size ≤ p.totLen)
    (type : p.arp.ethhdr.type = htons ethtypeArp) (request : p.arp.opcode = htons arpRequest)
    (configured : netif.ipAddr ≠ 0) (own : p.arp.dipaddr = netif.ipAddr) (table : ArpTable) :
    Event.step table (.input netif p) =
      (updateArpEntry table netif p.arp.sipaddr p.arp.shwaddr 0,
        [{ p with payload := replyBytes netif netif.hwaddr p.payload }]) := by
  have isArp : htons p.eth.type = ethtypeArp := by
    rw [← htons_htons ethtypeArp, ← type]
    rfl
  have notIp : htons p.eth.type ≠ ethtypeIp := by
    rw [isArp]
    decide
  have isRequest : htons p.arp.opcode = arpRequest := by rw [request, htons_htons]
  rw [Event.step, if_neg notIp, if_pos isArp, etharpArpInput, if_neg (Nat.not_lt.mpr long)]
  simp only [isRequest, if_pos, if_neg configured, own, Option.toList_some]

/-- A host that gets a reply to itself takes over what it says. -/
theorem step_reply (netif : Netif) {p : Packet} (long : EtharpHdr.layout.size ≤ p.totLen)
    (type : p.arp.ethhdr.type = htons ethtypeArp) (reply : p.arp.opcode = htons arpReply)
    (own : p.arp.dipaddr = netif.ipAddr) (table : ArpTable) :
    Event.step table (.input netif p) =
      (updateArpEntry table netif p.arp.sipaddr p.arp.shwaddr arpInsertFlag, []) := by
  have isArp : htons p.eth.type = ethtypeArp := by
    rw [← htons_htons ethtypeArp, ← type]
    rfl
  have notIp : htons p.eth.type ≠ ethtypeIp := by
    rw [isArp]
    decide
  have isReply : htons p.arp.opcode = arpReply := by rw [reply, htons_htons]
  have notRequest : arpReply ≠ arpRequest := by decide
  rw [Event.step, if_neg notIp, if_pos isArp, etharpArpInput, if_neg (Nat.not_lt.mpr long)]
  simp only [isReply, if_neg notRequest, if_pos, own, Option.toList_none]

/-- The exchange. When host `a` sends a request for the address of host `b`, then `b`
sends exactly one reply to every copy of the request that arrives. Whatever happens at `a`
in between, a copy of that reply that arrives while the entry of the request is pending
gives `a` the hardware address of `b`; and the entry is pending until there is a tick, or
something is heard of `b`. Where `b` has an entry to spare it then has the hardware address
of `a` as well.

Proof: the header of the request is read back from its bytes where it arrives, and so is
that of the reply. A pending entry is the place for what is heard of its address, and in a
well-formed table the entry that is made stable there is the one that is found. -/
theorem request_resolves {a b : Netif} (fullA : a.hwaddrLen.val = 6) (fullB : b.hwaddrLen.val = 6)
    {tableA tableB : ArpTable} (wellFormedA : WellFormed tableA) (wellFormedB : WellFormed tableB)
    {q request : Packet} {ipaddr : Option UInt32} {alloc : Option Memory}
    (configured : b.ipAddr ≠ 0) (next : destination a ipaddr = .host b.ipAddr)
    (sent : (etharpOutput a (some q) ipaddr alloc tableA).request = some request) {asked : Packet}
    (arrives : Arrives request asked) :
    ∃ reply, (Event.step tableB (.input b asked)).2 = [reply] ∧
      (∀ events answered, Arrives reply answered →
        Waits (runEvents events (etharpOutput a (some q) ipaddr alloc tableA).table).1 b.ipAddr →
        answerFor 6 (Event.step
          (runEvents events (etharpOutput a (some q) ipaddr alloc tableA).table).1
            (.input a answered)).1 b.ipAddr = some (List.ofFn b.hwaddr, 0)) ∧
      (∀ events : List Event, (∀ event ∈ events, event.Leaves b.ipAddr) →
        Waits (runEvents events (etharpOutput a (some q) ipaddr alloc tableA).table).1 b.ipAddr) ∧
      (a.ipAddr ≠ 0 → placeFor tableB a.ipAddr ≠ none →
        answerFor 6 (Event.step tableB (.input b asked)).1 a.ipAddr =
          some (List.ofFn a.hwaddr, 0)) := by
  obtain ⟨⟨m, rfl⟩, afterQuery, waits⟩ := output_request next sent
  have whole (ethaddr : EthAddr) : known 6 ethaddr = List.ofFn ethaddr := by
    rw [known, List.take_of_length_le (by rw [List.length_ofFn])]
  have header : asked.arp = wholeRequest a b.ipAddr := by
    rw [arrives.arp (Nat.le_refl _), Packet.arp, requestBytes, Layout.read_write, requestFor_full fullA]
  have long : EtharpHdr.layout.size ≤ asked.totLen := arrives.1
  have stepB := step_request b long (by rw [header]; rfl) (by rw [header]; rfl) configured
    (by rw [header]; rfl) tableB
  have wellFormed := wellFormed_query wellFormedA b.ipAddr
  refine ⟨_, by rw [stepB], ?_, ?_, ?_⟩
  · intro events answered arrivesBack waitsThen
    have replied : answered.arp = wholeReply b b.hwaddr asked.arp := by
      rw [arrivesBack.arp long, Packet.arp, replyBytes, Layout.read_write, replyTo_full fullB]
      rfl
    rw [header] at replied
    rw [afterQuery] at waitsThen ⊢
    have stepA := step_reply a (Nat.le_trans long arrivesBack.1) (by rw [replied]; rfl)
      (by rw [replied]; rfl) (by rw [replied]; rfl) (runEvents events (queryTable tableA b.ipAddr)).1
    rw [stepA, replied]
    have resolved := answerFor_update (wellFormed_runEvents wellFormed events) a configured
      waitsThen.placed b.hwaddr arpInsertFlag
    rw [fullA, whole] at resolved
    exact resolved
  · intro events leaves
    rw [afterQuery]
    exact waits_runEvents wellFormed waits leaves
  · intro notZero room
    rw [stepB, header]
    have learned := answerFor_update wellFormedB b notZero room a.hwaddr 0
    rw [fullB, whole] at learned
    exact learned

/-- The console and the gateway, with empty tables. -/
theorem request_resolves_console :
    ∃ reply, (Event.step (etharpInit unset) (.input gateway consoleRequest)).2 = [reply] ∧
      (∀ events answered, Arrives reply answered →
        Waits (runEvents events (etharpOutput console (some consolePacket) (some gateway.ipAddr)
          (some fun _ => 0) (etharpInit unset)).table).1 gateway.ipAddr →
        answerFor 6 (Event.step
          (runEvents events (etharpOutput console (some consolePacket) (some gateway.ipAddr)
            (some fun _ => 0) (etharpInit unset)).table).1 (.input console answered)).1
              gateway.ipAddr = some (List.ofFn gateway.hwaddr, 0)) ∧
      (∀ events : List Event, (∀ event ∈ events, event.Leaves gateway.ipAddr) →
        Waits (runEvents events (etharpOutput console (some consolePacket) (some gateway.ipAddr)
          (some fun _ => 0) (etharpInit unset)).table).1 gateway.ipAddr) ∧
      (console.ipAddr ≠ 0 → placeFor (etharpInit unset) console.ipAddr ≠ none →
        answerFor 6 (Event.step (etharpInit unset) (.input gateway consoleRequest)).1 console.ipAddr =
          some (List.ofFn console.hwaddr, 0)) := by
  have next : destination console (some gateway.ipAddr) = .host gateway.ipAddr := by decide
  have missing : lookup (etharpInit unset) gateway.ipAddr = none := by decide
  have entry : (queryEntry (etharpInit unset) gateway.ipAddr).isSome = true := by decide
  obtain ⟨asked, isEntry⟩ := Option.isSome_iff_exists.mp entry
  exact request_resolves rfl rfl (wellFormed_init unset) (wellFormed_init unset) (by decide) next
    (by simp only [etharpOutput, next, missing, etharpQuery, isEntry]; rfl)
    (⟨Nat.le_refl _, fun _ _ => rfl⟩ : Arrives consoleRequest consoleRequest)

end Ps2Eth.Etharp
