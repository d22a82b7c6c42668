import Ps2Eth.Etharp.Table
import Ps2Eth.Lib.AgedMap

/-!
# What the ARP table answers

The table is a cache of what was heard: the hardware address that the last packet from
each IP address carried, for as long as `etharp_tmr` lets it stay. The abstract map
`AgedMap.after` keeps all of that. The table keeps a part of it, since it has ten
entries; where no more than ten addresses are in play it keeps all of it.
-/

namespace Ps2Eth.Etharp

open Ps2klsi (arpTableSize)

/-- The calls that change the table. -/
inductive Call where
  | tmr
  | update (netif : Netif) (ipaddr : UInt32) (ethaddr : EthAddr) (flags : UInt8)
  | query (ipaddr : UInt32)

/-- What a call does to the table: the three functions through which it changes. -/
def Call.run (table : ArpTable) : Call → ArpTable
  | .tmr => etharpTmr table
  | .update netif ipaddr ethaddr flags => updateArpEntry table netif ipaddr ethaddr flags
  | .query ipaddr => queryTable table ipaddr

/-- The table after calls in turn. -/
def runCalls (calls : List Call) (table : ArpTable) : ArpTable := calls.foldl Call.run table

/-- The bytes of a hardware address that an interface with addresses of this length uses. -/
def known (hwaddrLen : Nat) (ethaddr : EthAddr) : List UInt8 := (List.ofFn ethaddr).take hwaddrLen

/-- What is heard with a call. There is no host with the address zero. -/
def Call.heard (hwaddrLen : Nat) : Call → List (AgedMap.Event UInt32 (List UInt8))
  | .tmr => [.tick]
  | .update _ ipaddr ethaddr _ => if ipaddr = 0 then [] else [.hear ipaddr (known hwaddrLen ethaddr)]
  | .query _ => []

/-- What is asked for with a call. -/
def Call.asked : Call → List (AgedMap.Event UInt32 Unit)
  | .tmr => [.tick]
  | .update _ _ _ _ => []
  | .query ipaddr => [.hear ipaddr ()]

/-- What a call can bring into the table. -/
def Call.named : Call → List (AgedMap.Event UInt32 Unit)
  | .tmr => [.tick]
  | .update _ ipaddr _ _ => if ipaddr = 0 then [] else [.hear ipaddr ()]
  | .query ipaddr => [.hear ipaddr ()]

/-- The interface of a call has hardware addresses of this length. -/
def Call.Uses (hwaddrLen : Nat) : Call → Prop
  | .update netif _ _ _ => netif.hwaddrLen.val = hwaddrLen
  | _ => True

/-- The `ctime` at which an entry is cleared. -/
def lifetime : EtharpState → UInt8
  | .empty => 0
  | .pending => arpMaxpending
  | .stable => arpMaxage

/-- The entries in use are for distinct addresses, and all of them are in time. -/
structure WellFormed (table : ArpTable) : Prop where
  distinct : ∀ i j, (table i).state ≠ .empty → (table j).state ≠ .empty →
    (table i).ipaddr = (table j).ipaddr → i = j
  inTime : ∀ i, (table i).state ≠ .empty → (table i).ctime < lifetime (table i).state
  named : ∀ i, (table i).state = .stable → (table i).ipaddr ≠ 0

/-- No entry but `i` is in use for the address. -/
def OnlyAt (table : ArpTable) (ipaddr : UInt32) (i : Fin arpTableSize) : Prop :=
  ∀ j, j ≠ i → (table j).state ≠ .empty → (table j).ipaddr ≠ ipaddr

/-- The entry that `update_arp_entry` uses for an address. -/
def placeFor (table : ArpTable) (ipaddr : UInt32) : Option (Fin arpTableSize) :=
  (entryFor table ipaddr).or (findArpEntry table)

/-- An entry that was just updated. -/
def answer (netif : Netif) (ipaddr : UInt32) (ethaddr old : EthAddr) : EtharpEntry where
  ipaddr := ipaddr
  ethaddr := copyAddr netif.hwaddrLen ethaddr old
  state := .stable
  ctime := 0

/-- An entry that was just made for a request. -/
def awaiting (ipaddr : UInt32) (old : EtharpEntry) : EtharpEntry :=
  { old with ipaddr := ipaddr, ctime := 0, state := .pending }

variable {table : ArpTable}

/-- What `update_arp_entry` does: an entry in use for the address, or else the entry that
is available, is made stable. -/
theorem updateArpEntry_eq (table : ArpTable) (netif : Netif) (ipaddr : UInt32) (ethaddr : EthAddr)
    (flags : UInt8) :
    updateArpEntry table netif ipaddr ethaddr flags =
      if ipaddr = 0 then table
      else match placeFor table ipaddr with
        | none => table
        | some i => Function.update table i (answer netif ipaddr ethaddr (table i).ethaddr) := by
  rw [updateArpEntry, placeFor]
  split
  case isTrue => rfl
  case isFalse =>
    cases found : entryFor table ipaddr with
    | some i =>
      obtain ⟨same, -⟩ := entryFor_some found
      simp only [Option.some_or, answer, same]
    | none =>
      have inserts : etharpAlwaysInsert = true ∨ flags &&& arpInsertFlag ≠ 0 := Or.inl rfl
      simp only [Option.none_or, if_pos inserts]
      rfl

/-- What `etharp_query` does to the table. -/
theorem queryTable_eq (table : ArpTable) (ipaddr : UInt32) :
    queryTable table ipaddr =
      if (entryFor table ipaddr).isSome then table
      else match findArpEntry table with
        | none => table
        | some i => Function.update table i (awaiting ipaddr (table i)) := by
  rw [queryTable, queryEntry]
  cases found : entryFor table ipaddr with
  | some i =>
    simp only [Option.isSome_some, if_true]
    split
    · rfl
    · rfl
  | none =>
    simp only [Option.isSome_none, Bool.false_eq_true, if_false]
    cases findArpEntry table with
    | none => rfl
    | some i => rfl

/-- Where an address is put, no other entry is in use for it, and no other address is
awaited. -/
theorem placeFor_some (wellFormed : WellFormed table) {ipaddr : UInt32} {i : Fin arpTableSize}
    (place : placeFor table ipaddr = some i) :
    OnlyAt table ipaddr i ∧ ((table i).state = .pending → (table i).ipaddr = ipaddr) := by
  rcases Option.or_eq_some_iff.mp place with used | ⟨unused, available⟩
  · obtain ⟨same, inUse⟩ := entryFor_some used
    refine ⟨?_, fun _ => same⟩
    intro j other usedToo sameToo
    exact other (wellFormed.distinct j i usedToo inUse (sameToo.trans same.symm))
  · refine ⟨fun j _ => entryFor_none.mp unused j, ?_⟩
    intro pending
    exact absurd pending (findArpEntry_some available).notPending

/-- One entry is replaced.

Proof: two entries are compared by whether either is the one replaced. The replaced one is
alone in its address by `OnlyAt`, and in time by its own bound; the others are as they
were. -/
theorem WellFormed.set (wellFormed : WellFormed table) {i : Fin arpTableSize} {entry : EtharpEntry}
    (only : OnlyAt table entry.ipaddr i) (inTime : entry.ctime < lifetime entry.state)
    (named : entry.state = .stable → entry.ipaddr ≠ 0) :
    WellFormed (Function.update table i entry) := by
  constructor
  · intro j k usedJ usedK same
    by_cases atJ : j = i
    · by_cases atK : k = i
      · rw [atJ, atK]
      · rw [atJ, Function.update_self, Function.update_of_ne atK] at same
        rw [Function.update_of_ne atK] at usedK
        exact absurd same.symm (only k atK usedK)
    · rw [Function.update_of_ne atJ] at usedJ same
      by_cases atK : k = i
      · rw [atK, Function.update_self] at same
        exact absurd same (only j atJ usedJ)
      · rw [Function.update_of_ne atK] at usedK same
        exact wellFormed.distinct j k usedJ usedK same
  · intro j
    rcases eq_or_ne j i with rfl | other
    · rw [Function.update_self]
      exact fun _ => inTime
    · rw [Function.update_of_ne other]
      exact wellFormed.inTime j
  · intro j
    rcases eq_or_ne j i with rfl | other
    · rw [Function.update_self]
      exact named
    · rw [Function.update_of_ne other]
      exact wellFormed.named j

/-- An entry after a tick: older, and cleared when its time is over. -/
theorem ageEntry_eq (entry : EtharpEntry) :
    ageEntry entry = { entry with
      ctime := entry.ctime + 1
      state := if lifetime entry.state ≤ entry.ctime + 1 then .empty else entry.state } := by
  cases state : entry.state with
  | empty => simp [ageEntry, state, lifetime]
  | pending =>
    by_cases overdue : arpMaxpending ≤ entry.ctime + 1
    · simp [ageEntry, state, lifetime, overdue]
    · simp [ageEntry, state, lifetime, overdue]
  | stable =>
    by_cases overdue : arpMaxage ≤ entry.ctime + 1
    · simp [ageEntry, state, lifetime, overdue]
    · simp [ageEntry, state, lifetime, overdue]

/-- An entry that a tick leaves in use, and its age. -/
theorem ageEntry_used {entry : EtharpEntry} (used : (ageEntry entry).state ≠ .empty) :
    ageEntry entry = { entry with ctime := entry.ctime + 1 } ∧
      entry.ctime + 1 < lifetime entry.state := by
  rw [ageEntry_eq] at used ⊢
  split at used
  case isTrue => exact absurd rfl used
  case isFalse inTime =>
    rw [if_neg inTime]
    exact ⟨rfl, UInt8.not_le.mp inTime⟩

/-- The age of an entry in time does not wrap. -/
theorem ctime_succ {entry : EtharpEntry} (inTime : entry.ctime < lifetime entry.state) :
    (entry.ctime + 1).toNat = entry.ctime.toNat + 1 := by
  have bound := UInt8.lt_iff_toNat_lt.mp inTime
  have short : (lifetime entry.state).toNat ≤ 120 := by
    cases entry.state
    all_goals decide
  have one : (1 : UInt8).toNat = 1 := rfl
  rw [UInt8.toNat_add, one]
  omega

/-- `etharp_init` leaves no entry in use, whatever the table held. -/
theorem wellFormed_init (table : ArpTable) : WellFormed (etharpInit table) := by
  constructor
  · intro i j used
    exact absurd rfl used
  · intro i used
    exact absurd rfl used
  · intro i stable
    cases stable

/-- `etharp_tmr` keeps the table well formed: an entry that would reach the end of its
life is cleared, and the others are a tick older and still in time. -/
theorem wellFormed_tmr (wellFormed : WellFormed table) : WellFormed (etharpTmr table) := by
  have aged (i : Fin arpTableSize) (used : (etharpTmr table i).state ≠ .empty) :
      etharpTmr table i = { table i with ctime := (table i).ctime + 1 } ∧
        (table i).ctime + 1 < lifetime (table i).state := ageEntry_used used
  constructor
  · intro i j usedI usedJ same
    obtain ⟨olderI, -⟩ := aged i usedI
    obtain ⟨olderJ, -⟩ := aged j usedJ
    rw [olderI] at usedI same
    rw [olderJ] at usedJ same
    exact wellFormed.distinct i j usedI usedJ same
  · intro i used
    obtain ⟨older, inTime⟩ := aged i used
    rw [older]
    exact inTime
  · intro i stable
    have used : (etharpTmr table i).state ≠ .empty := by
      rw [stable]
      decide
    obtain ⟨older, -⟩ := aged i used
    rw [older] at stable ⊢
    exact wellFormed.named i stable

/-- `update_arp_entry` keeps the table well formed. The entry that it makes stable is the
one in use for the address, if there is one. -/
theorem wellFormed_update (wellFormed : WellFormed table) (netif : Netif) (ipaddr : UInt32)
    (ethaddr : EthAddr) (flags : UInt8) :
    WellFormed (updateArpEntry table netif ipaddr ethaddr flags) := by
  rw [updateArpEntry_eq]
  split
  case isTrue => exact wellFormed
  case isFalse notZero =>
    split
    case h_1 => exact wellFormed
    case h_2 i place =>
      exact wellFormed.set (placeFor_some wellFormed place).1 (by decide : (0 : UInt8) < arpMaxage)
        fun _ => notZero

/-- `etharp_query` keeps the table well formed. It only takes a new entry where none is in
use for the address. -/
theorem wellFormed_query (wellFormed : WellFormed table) (ipaddr : UInt32) :
    WellFormed (queryTable table ipaddr) := by
  rw [queryTable_eq]
  split
  case isTrue => exact wellFormed
  case isFalse unused =>
    split
    case h_1 => exact wellFormed
    case h_2 i available =>
      have none := Option.not_isSome_iff_eq_none.mp unused
      refine wellFormed.set ?_ (by decide : (0 : UInt8) < arpMaxpending) ?_
      · exact fun j _ => entryFor_none.mp none j
      · intro stable
        cases stable

/-- Every call keeps the table well formed. -/
theorem wellFormed_run (wellFormed : WellFormed table) (call : Call) :
    WellFormed (call.run table) := by
  cases call with
  | tmr => exact wellFormed_tmr wellFormed
  | update netif ipaddr ethaddr flags => exact wellFormed_update wellFormed netif ipaddr ethaddr flags
  | query ipaddr => exact wellFormed_query wellFormed ipaddr

/-- Each stable entry has what was heard last of its address, and its age. -/
def Answers (hwaddrLen : Nat) (table : ArpTable) (held : AgedMap.Held UInt32 (List UInt8)) : Prop :=
  ∀ i, (table i).state = .stable →
    held (table i).ipaddr = some (known hwaddrLen (table i).ethaddr, (table i).ctime.toNat)

/-- Each pending entry was asked for, at most as long ago as it is old. -/
def Awaits (table : ArpTable) (wanted : AgedMap.Held UInt32 Unit) : Prop :=
  ∀ i, (table i).state = .pending →
    ∃ age ≤ (table i).ctime.toNat, wanted (table i).ipaddr = some ((), age)

/-- The entries in use are for addresses that were named as long ago as they are old. -/
def Recent (table : ArpTable) (named : List (AgedMap.Event UInt32 Unit)) : Prop :=
  ∀ i, (table i).state ≠ .empty →
    AgedMap.HeardWithin named (table i).ipaddr (table i).ctime.toNat

/-- A stable entry is for the address. -/
def Placed (table : ArpTable) (ipaddr : UInt32) : Prop :=
  ∃ i, (table i).state = .stable ∧ (table i).ipaddr = ipaddr

/-- The table is full of entries for other addresses, and none of them is older. -/
structure Displaced (table : ArpTable) (ipaddr : UInt32) (age : Nat) : Prop where
  full : ∀ i, (table i).state ≠ .empty
  absent : ∀ i, (table i).ipaddr ≠ ipaddr
  young : ∀ i, (table i).ctime.toNat ≤ age

/-- Each address that something is known of has an entry, or was crowded out by ten
others. -/
def Kept (table : ArpTable) (held : AgedMap.Held UInt32 (List UInt8))
    (named : List (AgedMap.Event UInt32 Unit)) : Prop :=
  ∀ ipaddr value, held ipaddr = some value →
    Placed table ipaddr ∨ AgedMap.Crowded named arpTableSize ipaddr (value.2 + 1)

/-- What is copied is known afterwards. -/
theorem known_copyAddr (hwaddrLen : Nat) (source target : EthAddr) :
    known hwaddrLen (copyAddr hwaddrLen source target) = known hwaddrLen source := by
  apply List.ext_getElem
  · simp only [known, List.length_take, List.length_ofFn]
  · intro k inside _
    have copied : k < hwaddrLen := by
      rw [known, List.length_take] at inside
      omega
    simp only [known, List.getElem_take, List.getElem_ofFn, copyAddr, if_pos copied]

/-- An entry that is stable after a tick was so before, and is one tick older. -/
theorem etharpTmr_used {i : Fin arpTableSize} (used : (etharpTmr table i).state ≠ .empty) :
    etharpTmr table i = { table i with ctime := (table i).ctime + 1 } ∧
      (table i).state ≠ .empty ∧ (table i).ctime + 1 < lifetime (table i).state := by
  obtain ⟨older, inTime⟩ := ageEntry_used used
  refine ⟨older, ?_, inTime⟩
  intro empty
  apply used
  rw [etharpTmr, older, empty]

/-- A tick makes the entries older, and what was heard as well; both are dropped at the
same age. -/
theorem answers_tmr {hwaddrLen : Nat} {held : AgedMap.Held UInt32 (List UInt8)}
    (wellFormed : WellFormed table) (answers : Answers hwaddrLen table held) :
    Answers hwaddrLen (etharpTmr table) (AgedMap.apply arpMaxage.toNat held .tick) := by
  intro i stable
  have used : (etharpTmr table i).state ≠ .empty := by
    rw [stable]
    decide
  obtain ⟨older, usedBefore, inTime⟩ := etharpTmr_used used
  rw [older] at stable ⊢
  have grown := ctime_succ (wellFormed.inTime i usedBefore)
  have young : (table i).ctime.toNat + 1 < arpMaxage.toNat := by
    rw [stable] at inTime
    rw [← grown]
    exact UInt8.lt_iff_toNat_lt.mp inTime
  simp only [AgedMap.apply, answers i stable, Option.bind_some, AgedMap.older, if_pos young, grown]

/-- One entry is made stable for an address, and the map told the same. -/
theorem Answers.set {hwaddrLen : Nat} {held : AgedMap.Held UInt32 (List UInt8)}
    (answers : Answers hwaddrLen table held) {ipaddr : UInt32} {i : Fin arpTableSize}
    (only : OnlyAt table ipaddr i) {netif : Netif} (uses : netif.hwaddrLen.val = hwaddrLen)
    (ethaddr old : EthAddr) :
    Answers hwaddrLen (Function.update table i (answer netif ipaddr ethaddr old))
      (Function.update held ipaddr (some (known hwaddrLen ethaddr, 0))) := by
  intro j stable
  rcases eq_or_ne j i with rfl | other
  · rw [Function.update_self, answer, Function.update_self, uses, known_copyAddr]
    rfl
  · rw [Function.update_of_ne other] at stable ⊢
    have differs : (table j).ipaddr ≠ ipaddr := only j other (by rw [stable]; decide)
    rw [Function.update_of_ne differs]
    exact answers j stable

/-- `update_arp_entry` puts in what was heard, with age zero, or puts in nothing. -/
theorem answers_update {hwaddrLen : Nat} {held : AgedMap.Held UInt32 (List UInt8)}
    (wellFormed : WellFormed table) (answers : Answers hwaddrLen table held) {netif : Netif}
    (uses : netif.hwaddrLen.val = hwaddrLen) {ipaddr : UInt32} (notZero : ipaddr ≠ 0)
    (ethaddr : EthAddr) (flags : UInt8) :
    Answers hwaddrLen (updateArpEntry table netif ipaddr ethaddr flags)
      (AgedMap.apply arpMaxage.toNat held (.hear ipaddr (known hwaddrLen ethaddr))) := by
  rw [updateArpEntry_eq, if_neg notZero, AgedMap.apply]
  split
  case h_1 full =>
    obtain ⟨unused, -⟩ := Option.or_eq_none_iff.mp full
    intro i stable
    have differs : (table i).ipaddr ≠ ipaddr := entryFor_none.mp unused i (by rw [stable]; decide)
    rw [Function.update_of_ne differs]
    exact answers i stable
  case h_2 i place =>
    exact answers.set (placeFor_some wellFormed place).1 uses ethaddr _

/-- `etharp_query` makes no entry stable, and so takes nothing for an answer that was not
heard. -/
theorem answers_query {hwaddrLen : Nat} {held : AgedMap.Held UInt32 (List UInt8)}
    (answers : Answers hwaddrLen table held) (ipaddr : UInt32) :
    Answers hwaddrLen (queryTable table ipaddr) held := by
  rw [queryTable_eq]
  split
  case isTrue => exact answers
  case isFalse =>
    split
    case h_1 => exact answers
    case h_2 i _ =>
      intro j stable
      rcases eq_or_ne j i with rfl | other
      · rw [Function.update_self] at stable
        cases stable
      · rw [Function.update_of_ne other] at stable ⊢
        exact answers j stable

/-- A call tells the table and the map the same. -/
theorem answers_run {hwaddrLen : Nat} {held : AgedMap.Held UInt32 (List UInt8)}
    (wellFormed : WellFormed table) (answers : Answers hwaddrLen table held) {call : Call}
    (uses : call.Uses hwaddrLen) :
    Answers hwaddrLen (call.run table)
      ((call.heard hwaddrLen).foldl (AgedMap.apply arpMaxage.toNat) held) := by
  cases call with
  | tmr => exact answers_tmr wellFormed answers
  | update netif ipaddr ethaddr flags =>
    rw [Call.run, Call.heard]
    by_cases zero : ipaddr = 0
    · rw [if_pos zero, updateArpEntry_eq, if_pos zero]
      exact answers
    · rw [if_neg zero]
      exact answers_update wellFormed answers uses zero ethaddr flags
  | query ipaddr => exact answers_query answers ipaddr

/-- A tick makes pending entries older by one as well as the requests they stand for. -/
theorem awaits_tmr {wanted : AgedMap.Held UInt32 Unit} (wellFormed : WellFormed table)
    (awaits : Awaits table wanted) :
    Awaits (etharpTmr table) (AgedMap.apply arpMaxpending.toNat wanted .tick) := by
  intro i pending
  have used : (etharpTmr table i).state ≠ .empty := by
    rw [pending]
    decide
  obtain ⟨older, usedBefore, inTime⟩ := etharpTmr_used used
  rw [older] at pending ⊢
  obtain ⟨age, atMost, wantedThen⟩ := awaits i pending
  have grown := ctime_succ (wellFormed.inTime i usedBefore)
  have young : age + 1 < arpMaxpending.toNat := by
    rw [pending] at inTime
    have less := UInt8.lt_iff_toNat_lt.mp inTime
    rw [grown] at less
    exact Nat.lt_of_le_of_lt (Nat.succ_le_succ atMost) less
  refine ⟨age + 1, grown ▸ Nat.succ_le_succ atMost, ?_⟩
  simp only [AgedMap.apply, wantedThen, Option.bind_some, AgedMap.older, if_pos young]

/-- `update_arp_entry` makes no entry pending. -/
theorem awaits_update {wanted : AgedMap.Held UInt32 Unit} (awaits : Awaits table wanted)
    (netif : Netif) (ipaddr : UInt32) (ethaddr : EthAddr) (flags : UInt8) :
    Awaits (updateArpEntry table netif ipaddr ethaddr flags) wanted := by
  rw [updateArpEntry_eq]
  split
  case isTrue => exact awaits
  case isFalse =>
    split
    case h_1 => exact awaits
    case h_2 i _ =>
      intro j pending
      rcases eq_or_ne j i with rfl | other
      · rw [Function.update_self] at pending
        cases pending
      · rw [Function.update_of_ne other] at pending ⊢
        exact awaits j pending

/-- The entry that `etharp_query` makes pending was asked for just now. -/
theorem awaits_query {wanted : AgedMap.Held UInt32 Unit} (awaits : Awaits table wanted)
    (ipaddr : UInt32) :
    Awaits (queryTable table ipaddr)
      (AgedMap.apply arpMaxpending.toNat wanted (.hear ipaddr ())) := by
  have kept (i : Fin arpTableSize) (pending : (table i).state = .pending) :
      ∃ age ≤ (table i).ctime.toNat, Function.update wanted ipaddr (some ((), 0))
        (table i).ipaddr = some ((), age) := by
    rcases eq_or_ne (table i).ipaddr ipaddr with same | differs
    · exact ⟨0, Nat.zero_le _, by rw [same, Function.update_self]⟩
    · rw [Function.update_of_ne differs]
      exact awaits i pending
  rw [queryTable_eq, AgedMap.apply]
  split
  case isTrue => exact kept
  case isFalse =>
    split
    case h_1 => exact kept
    case h_2 i _ =>
      intro j pending
      rcases eq_or_ne j i with rfl | other
      · rw [Function.update_self, awaiting]
        exact ⟨0, Nat.zero_le _, Function.update_self ..⟩
      · rw [Function.update_of_ne other] at pending ⊢
        exact kept j pending

/-- Every call keeps it that pending entries were asked for. The cases are the three
functions above. -/
theorem awaits_run {wanted : AgedMap.Held UInt32 Unit} (wellFormed : WellFormed table)
    (awaits : Awaits table wanted) (call : Call) :
    Awaits (call.run table) (call.asked.foldl (AgedMap.apply arpMaxpending.toNat) wanted) := by
  cases call with
  | tmr => exact awaits_tmr wellFormed awaits
  | update netif ipaddr ethaddr flags => exact awaits_update awaits netif ipaddr ethaddr flags
  | query ipaddr => exact awaits_query awaits ipaddr

/-- An entry is made for the address that is named. -/
theorem Recent.set {named : List (AgedMap.Event UInt32 Unit)} (recent : Recent table named)
    (i : Fin arpTableSize) (entry : EtharpEntry) :
    Recent (Function.update table i entry) (named ++ [.hear entry.ipaddr ()]) := by
  intro j used
  rcases eq_or_ne j i with rfl | other
  · rw [Function.update_self]
    exact AgedMap.heardWithin_last named entry.ipaddr () _
  · rw [Function.update_of_ne other] at used ⊢
    exact (recent j used).snoc _

/-- The entries stay as they are when an address is named. -/
theorem Recent.stay {named : List (AgedMap.Event UInt32 Unit)} (recent : Recent table named)
    (ipaddr : UInt32) : Recent table (named ++ [.hear ipaddr ()]) :=
  fun i used => (recent i used).snoc _

/-- Every call keeps it that the addresses in use were named as lately as their entries
say. -/
theorem recent_run {named : List (AgedMap.Event UInt32 Unit)} (wellFormed : WellFormed table)
    (recent : Recent table named) (call : Call) : Recent (call.run table) (named ++ call.named) := by
  cases call with
  | tmr =>
    intro i used
    obtain ⟨older, usedBefore, -⟩ := etharpTmr_used used
    rw [Call.run, older, ctime_succ (wellFormed.inTime i usedBefore)]
    exact (recent i usedBefore).snoc .tick
  | update netif ipaddr ethaddr flags =>
    rw [Call.run, Call.named, updateArpEntry_eq]
    split
    case isTrue =>
      rw [List.append_nil]
      exact recent
    case isFalse =>
      split
      case h_1 => exact recent.stay ipaddr
      case h_2 i _ => exact recent.set i (answer netif ipaddr ethaddr (table i).ethaddr)
  | query ipaddr =>
    rw [Call.run, Call.named, queryTable_eq]
    split
    case isTrue => exact recent.stay ipaddr
    case isFalse =>
      split
      case h_1 => exact recent.stay ipaddr
      case h_2 i _ => exact recent.set i (awaiting ipaddr (table i))

/-- A pending entry is at most one tick old. -/
theorem pending_young (wellFormed : WellFormed table) {i : Fin arpTableSize}
    (pending : (table i).state = .pending) : (table i).ctime.toNat ≤ 1 := by
  have inTime := wellFormed.inTime i (by rw [pending]; decide)
  rw [pending] at inTime
  exact Nat.le_of_lt_succ (UInt8.lt_iff_toNat_lt.mp inTime)

/-- Where all entries are pending, there is no place for another address. -/
theorem displaced_pending (wellFormed : WellFormed table) (all : ∀ i, (table i).state = .pending)
    {ipaddr : UInt32} (unused : entryFor table ipaddr = none) : Displaced table ipaddr 1 := by
  have used (i : Fin arpTableSize) : (table i).state ≠ .empty := by
    rw [all i]
    decide
  constructor
  · exact used
  · exact fun i => entryFor_none.mp unused i (used i)
  · exact fun i => pending_young wellFormed (all i)

/-- Where a stable entry has to give way, no entry is empty, and no stable one is older.

Proof: as a stable entry gives way, no entry was empty, and none that is stable was older.
Pending entries are younger than any bound here, because they do not live two ticks. -/
theorem displaced_set (wellFormed : WellFormed table) {i : Fin arpTableSize}
    (available : Available table i) (stable : (table i).state = .stable) {entry : EtharpEntry}
    (unused : entryFor table entry.ipaddr = none) (used : entry.state ≠ .empty)
    (fresh : entry.ctime = 0) :
    Displaced (Function.update table i entry) (table i).ipaddr ((table i).ctime.toNat + 1) := by
  have inUse (j : Fin arpTableSize) : (table j).state ≠ .empty := by
    intro empty
    have free := available.empty ⟨j, empty⟩
    rw [stable] at free
    cases free
  constructor
  · intro j
    rcases eq_or_ne j i with rfl | other
    · rw [Function.update_self]
      exact used
    · rw [Function.update_of_ne other]
      exact inUse j
  · intro j same
    rcases eq_or_ne j i with rfl | other
    · rw [Function.update_self] at same
      exact entryFor_none.mp unused j (inUse j) same.symm
    · rw [Function.update_of_ne other] at same
      exact other (wellFormed.distinct j i (inUse j) (inUse i) same)
  · intro j
    rcases eq_or_ne j i with rfl | other
    · rw [Function.update_self, fresh]
      exact Nat.zero_le _
    · rw [Function.update_of_ne other]
      cases state : (table j).state with
      | empty => exact absurd state (inUse j)
      | pending => exact Nat.le_trans (pending_young wellFormed state) (Nat.le_add_left 1 _)
      | stable =>
        exact Nat.le_succ_of_le (UInt8.le_iff_toNat_le.mp (available.oldest stable j state))

/-- The entries of such a table crowd the address out. -/
theorem Displaced.crowded {ipaddr : UInt32} {age : Nat} (displaced : Displaced table ipaddr age)
    (wellFormed : WellFormed table) {named : List (AgedMap.Event UInt32 Unit)}
    (recent : Recent table named) : AgedMap.Crowded named arpTableSize ipaddr age := by
  have distinct : Function.Injective fun i => (table i).ipaddr :=
    fun i j same => wellFormed.distinct i j (displaced.full i) (displaced.full j) same
  apply AgedMap.crowded_of_full distinct displaced.absent
  intro i
  exact (recent i (displaced.full i)).mono (displaced.young i)

section Keeping

variable {hwaddrLen : Nat} {held : AgedMap.Held UInt32 (List UInt8)}
  {named : List (AgedMap.Event UInt32 Unit)}

/-- A tick loses no address that is still held: its entry gets older, or those that
crowded it out do. -/
theorem kept_tmr (wellFormed : WellFormed table) (answers : Answers hwaddrLen table held)
    (kept : Kept table held named) :
    Kept (etharpTmr table) (AgedMap.apply arpMaxage.toNat held .tick) (named ++ [.tick]) := by
  intro ipaddr value knownNow
  obtain ⟨before, knownBefore, inTime⟩ := Option.bind_eq_some_iff.mp knownNow
  rw [AgedMap.older] at inTime
  split at inTime
  case isFalse => cases inTime
  case isTrue young =>
    obtain rfl := Option.some.inj inTime
    rcases kept ipaddr before knownBefore with ⟨i, stable, rfl⟩ | crowded
    · rw [answers i stable, Option.some.injEq] at knownBefore
      have used : (table i).state ≠ .empty := by
        rw [stable]
        decide
      have lives : ¬ lifetime (table i).state ≤ (table i).ctime + 1 := by
        rw [stable, UInt8.not_le, UInt8.lt_iff_toNat_lt, ctime_succ (wellFormed.inTime i used)]
        rw [← knownBefore] at young
        exact young
      refine Or.inl ⟨i, ?_, ?_⟩
      · rw [etharpTmr, ageEntry_eq, if_neg lives]
        exact stable
      · rw [etharpTmr, ageEntry_eq]
    · exact Or.inr (crowded.snoc .tick)

/-- One entry is made for an address. Any other that loses its entry is crowded out. -/
theorem Kept.set (wellFormed : WellFormed table) (answers : Answers hwaddrLen table held)
    (kept : Kept table held named) {i : Fin arpTableSize} {entry : EtharpEntry}
    (place : placeFor table entry.ipaddr = some i)
    (used : entry.state ≠ .empty) (fresh : entry.ctime = 0)
    (wellFormedAfter : WellFormed (Function.update table i entry))
    (recent : Recent table named) {ipaddr : UInt32} {value : List UInt8 × Nat}
    (other : ipaddr ≠ entry.ipaddr) (known : held ipaddr = some value) :
    Placed (Function.update table i entry) ipaddr ∨
      AgedMap.Crowded (named ++ [.hear entry.ipaddr ()]) arpTableSize ipaddr (value.2 + 1) := by
  rcases kept ipaddr value known with ⟨j, stable, rfl⟩ | crowded
  · rcases eq_or_ne j i with rfl | apart
    · rcases Option.or_eq_some_iff.mp place with same | ⟨unused, available⟩
      · exact absurd (entryFor_some same).1 other
      · have displaced := displaced_set wellFormed (findArpEntry_some available) stable unused used fresh
        rw [answers j stable, Option.some.injEq] at known
        rw [← known]
        exact Or.inr (displaced.crowded wellFormedAfter (recent.set j entry))
    · refine Or.inl ⟨j, ?_⟩
      rw [Function.update_of_ne apart]
      exact ⟨stable, rfl⟩
  · exact Or.inr (crowded.snoc _)

/-- Where `update_arp_entry` gives up an entry for another address, the full table shows
ten addresses that were named later, and where it finds no place ten others are in use.

Proof: by whether there is a place for the address. Where there is, the entry is set, and
of the other addresses at most the one that gave way is lost, to a full table. Where there
is none, all ten entries are in use for addresses that were named lately. -/
theorem kept_update (wellFormed : WellFormed table) (answers : Answers hwaddrLen table held)
    (kept : Kept table held named) (recent : Recent table named) (netif : Netif) {ipaddr : UInt32}
    (notZero : ipaddr ≠ 0) (ethaddr : EthAddr) (flags : UInt8) (told : List UInt8) :
    Kept (updateArpEntry table netif ipaddr ethaddr flags)
      (AgedMap.apply arpMaxage.toNat held (.hear ipaddr told)) (named ++ [.hear ipaddr ()]) := by
  have wellFormedAfter := wellFormed_update wellFormed netif ipaddr ethaddr flags
  intro key value known
  rw [AgedMap.apply] at known
  rw [updateArpEntry_eq, if_neg notZero] at wellFormedAfter ⊢
  cases place : placeFor table ipaddr with
  | some i =>
    simp only [place] at wellFormedAfter ⊢
    rcases eq_or_ne key ipaddr with rfl | other
    · refine Or.inl ⟨i, ?_⟩
      rw [Function.update_self]
      exact ⟨rfl, rfl⟩
    · rw [Function.update_of_ne other] at known
      have answered : (answer netif ipaddr ethaddr (table i).ethaddr).state ≠ .empty :=
        EtharpState.noConfusion
      exact Kept.set wellFormed answers kept place answered rfl wellFormedAfter recent other known
  | none =>
    simp only
    rcases eq_or_ne key ipaddr with rfl | other
    · obtain ⟨unused, none⟩ := Option.or_eq_none_iff.mp place
      have displaced := displaced_pending wellFormed (findArpEntry_none.mp none) unused
      have crowded := displaced.crowded wellFormed (recent.stay key)
      rw [Function.update_self, Option.some.injEq] at known
      rw [← known]
      exact Or.inr crowded
    · rw [Function.update_of_ne other] at known
      rcases kept key value known with placed | crowded
      · exact Or.inl placed
      · exact Or.inr (crowded.snoc _)

/-- The same holds of the entry that `etharp_query` takes for a new address. -/
theorem kept_query (wellFormed : WellFormed table) (answers : Answers hwaddrLen table held)
    (kept : Kept table held named) (recent : Recent table named) (ipaddr : UInt32) :
    Kept (queryTable table ipaddr) held (named ++ [.hear ipaddr ()]) := by
  have stays : Kept table held (named ++ [.hear ipaddr ()]) := by
    intro key value known
    rcases kept key value known with placed | crowded
    · exact Or.inl placed
    · exact Or.inr (crowded.snoc _)
  have wellFormedAfter := wellFormed_query wellFormed ipaddr
  rw [queryTable_eq] at wellFormedAfter ⊢
  split
  case isTrue => exact stays
  case isFalse used =>
    have unused := Option.not_isSome_iff_eq_none.mp used
    rw [if_neg used] at wellFormedAfter
    cases available : findArpEntry table with
    | none => exact stays
    | some i =>
      simp only [available] at wellFormedAfter ⊢
      intro key value known
      have place : placeFor table ipaddr = some i := by rw [placeFor, unused, Option.none_or, available]
      rcases ne_or_eq key ipaddr with other | rfl
      · have waits : (awaiting ipaddr (table i)).state ≠ .empty := EtharpState.noConfusion
        exact Kept.set wellFormed answers kept place waits rfl wellFormedAfter recent other known
      -- An address that is asked for has been crowded out before.
      · rcases kept key value known with ⟨j, stable, same⟩ | crowded
        · exact absurd same (entryFor_none.mp unused j (by rw [stable]; decide))
        · exact Or.inr (crowded.snoc _)

/-- A call keeps what is known in the table, as long as it is not crowded out. -/
theorem kept_run (wellFormed : WellFormed table) (answers : Answers hwaddrLen table held)
    (kept : Kept table held named) (recent : Recent table named) (call : Call) :
    Kept (call.run table) ((call.heard hwaddrLen).foldl (AgedMap.apply arpMaxage.toNat) held)
      (named ++ call.named) := by
  cases call with
  | tmr => exact kept_tmr wellFormed answers kept
  | update netif ipaddr ethaddr flags =>
    rw [Call.run, Call.heard, Call.named]
    by_cases zero : ipaddr = 0
    · rw [if_pos zero, if_pos zero, updateArpEntry_eq, if_pos zero, List.append_nil]
      exact kept
    · rw [if_neg zero, if_neg zero]
      exact kept_update wellFormed answers kept recent netif zero ethaddr flags _
  | query ipaddr => exact kept_query wellFormed answers kept recent ipaddr

end Keeping

/-- What was heard in a run of calls. -/
def heardIn (hwaddrLen : Nat) (calls : List Call) : List (AgedMap.Event UInt32 (List UInt8)) :=
  calls.flatMap (Call.heard hwaddrLen)

/-- What was asked for in a run of calls. -/
def askedIn (calls : List Call) : List (AgedMap.Event UInt32 Unit) := calls.flatMap Call.asked

/-- The last call runs on the table that the others left. -/
theorem runCalls_snoc (calls : List Call) (last : Call) (table : ArpTable) :
    runCalls (calls ++ [last]) table = last.run (runCalls calls table) := by
  rw [runCalls, List.foldl_append, List.foldl_cons, List.foldl_nil, runCalls]

/-- After every run of calls the table is well formed. -/
theorem runCalls_wellFormed (calls : List Call) (table : ArpTable) :
    WellFormed (runCalls calls (etharpInit table)) := by
  induction calls using List.reverseRecOn with
  | nil => exact wellFormed_init table
  | append_singleton calls last inductionHypothesis =>
    rw [runCalls_snoc]
    exact wellFormed_run inductionHypothesis last

/-- After every run of calls the table holds a part of what they told. -/
theorem runCalls_answers {hwaddrLen : Nat} {calls : List Call}
    (uses : ∀ call ∈ calls, call.Uses hwaddrLen) (table : ArpTable) :
    Answers hwaddrLen (runCalls calls (etharpInit table))
      (AgedMap.after arpMaxage.toNat (heardIn hwaddrLen calls)) := by
  induction calls using List.reverseRecOn with
  | nil =>
    intro i stable
    cases stable
  | append_singleton calls last inductionHypothesis =>
    have answers := inductionHypothesis fun call earlier => uses call (List.mem_append_left _ earlier)
    have usesLast := uses last (List.mem_append_right _ (List.mem_singleton_self _))
    have heard := answers_run (runCalls_wellFormed calls table) answers usesLast
    rw [← AgedMap.after_append] at heard
    rw [runCalls_snoc, heardIn, List.flatMap_append, List.flatMap_singleton]
    exact heard

/-- After every run of calls the pending entries were asked for. -/
theorem runCalls_awaits (calls : List Call) (table : ArpTable) :
    Awaits (runCalls calls (etharpInit table))
      (AgedMap.after arpMaxpending.toNat (askedIn calls)) := by
  induction calls using List.reverseRecOn with
  | nil =>
    intro i pending
    cases pending
  | append_singleton calls last inductionHypothesis =>
    have asked := awaits_run (runCalls_wellFormed calls table) inductionHypothesis last
    rw [← AgedMap.after_append] at asked
    rw [runCalls_snoc, askedIn, List.flatMap_append, List.flatMap_singleton]
    exact asked

/-- What was named in a run of calls. -/
def namedIn (calls : List Call) : List (AgedMap.Event UInt32 Unit) := calls.flatMap Call.named

/-- After every run of calls the entries in use are for addresses that were named. -/
theorem runCalls_recent (calls : List Call) (table : ArpTable) :
    Recent (runCalls calls (etharpInit table)) (namedIn calls) := by
  induction calls using List.reverseRecOn with
  | nil =>
    intro i used
    exact absurd rfl used
  | append_singleton calls last inductionHypothesis =>
    rw [runCalls_snoc, namedIn, List.flatMap_append, List.flatMap_singleton]
    exact recent_run (runCalls_wellFormed calls table) inductionHypothesis last

/-- After every run of calls the table holds what they told, but for what was crowded
out. -/
theorem runCalls_kept {hwaddrLen : Nat} {calls : List Call} (uses : ∀ call ∈ calls, call.Uses hwaddrLen)
    (table : ArpTable) :
    Kept (runCalls calls (etharpInit table))
      (AgedMap.after arpMaxage.toNat (heardIn hwaddrLen calls)) (namedIn calls) := by
  induction calls using List.reverseRecOn with
  | nil =>
    intro ipaddr value known
    cases known
  | append_singleton calls last inductionHypothesis =>
    have usesBefore := fun call earlier => uses call (List.mem_append_left [last] earlier)
    have kept := kept_run (runCalls_wellFormed calls table) (runCalls_answers usesBefore table)
      (inductionHypothesis usesBefore) (runCalls_recent calls table) last
    rw [← AgedMap.after_append] at kept
    rw [runCalls_snoc, heardIn, namedIn, List.flatMap_append, List.flatMap_singleton,
      List.flatMap_append, List.flatMap_singleton]
    exact kept

/-- What `etharp_output` finds for an address: the bytes of the hardware address, and the
time since they were set. -/
def answerFor (hwaddrLen : Nat) (table : ArpTable) (ipaddr : UInt32) : Option (List UInt8 × Nat) :=
  (lookup table ipaddr).map fun i => (known hwaddrLen (table i).ethaddr, (table i).ctime.toNat)

/-- A table that holds a part of a map answers from the map. -/
theorem answerFor_of_answers {hwaddrLen : Nat} {held : AgedMap.Held UInt32 (List UInt8)}
    (answers : Answers hwaddrLen table held) {ipaddr : UInt32} {value : List UInt8 × Nat}
    (answered : answerFor hwaddrLen table ipaddr = some value) : held ipaddr = some value := by
  obtain ⟨i, found, rfl⟩ := Option.map_eq_some_iff.mp answered
  obtain ⟨stable, rfl⟩ := lookup_some found
  exact answers i stable

/-- A table that holds a part of a map answers what has an entry. -/
theorem answerFor_of_placed {hwaddrLen : Nat} {held : AgedMap.Held UInt32 (List UInt8)}
    (answers : Answers hwaddrLen table held) {ipaddr : UInt32} (placed : Placed table ipaddr) :
    answerFor hwaddrLen table ipaddr = held ipaddr := by
  obtain ⟨j, stable, same⟩ := placed
  cases found : lookup table ipaddr with
  | none => exact absurd same (lookup_none.mp found j stable)
  | some i =>
    have answered : answerFor hwaddrLen table ipaddr =
        some (known hwaddrLen (table i).ethaddr, (table i).ctime.toNat) := by
      rw [answerFor, found, Option.map_some]
    rw [answered, answerFor_of_answers answers answered]

end Ps2Eth.Etharp
