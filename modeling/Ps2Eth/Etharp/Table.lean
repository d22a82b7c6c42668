import Ps2Eth.Etharp.Header
import Mathlib.Data.List.FinRange

/-!
# The ARP table

`arp_table` of `common/lwip/etharp.c`, and the functions that change it: `etharp_init`,
`etharp_tmr`, `update_arp_entry`, and the first half of `etharp_query`. Packets are not
queued: `ARP_QUEUEING` is not set.
-/

namespace Ps2Eth.Etharp

open Ps2klsi (arpTableSize)

/-- `ARP_MAXAGE`, the ticks after which a stable entry is given up. -/
def arpMaxage : UInt8 := 120

/-- `ARP_MAXPENDING`, the ticks after which a pending entry is given up. -/
def arpMaxpending : UInt8 := 2

/-- `ARP_INSERT_FLAG`, with which `update_arp_entry` is to add an entry that is
missing. -/
def arpInsertFlag : UInt8 := 1

/-- `ETHARP_ALWAYS_INSERT` is set, so that an entry is added whatever the flags say. -/
def etharpAlwaysInsert : Bool := true

/-- `enum etharp_state`: an entry is not used, waits for an answer, or has one. -/
inductive EtharpState where
  | empty
  | pending
  | stable
deriving DecidableEq

/-- `struct etharp_entry`: what is known of one address, and for how many ticks. -/
structure EtharpEntry where
  ipaddr : UInt32
  ethaddr : EthAddr
  state : EtharpState
  ctime : UInt8
deriving DecidableEq

/-- `arp_table`, as a function of the index of an entry. -/
abbrev ArpTable := Fin arpTableSize → EtharpEntry

variable (table : ArpTable)

/-- `etharp_init` empties every entry, and leaves the other fields as they were. -/
def etharpInit : ArpTable := fun i => { table i with state := .empty }

/-- One turn of the loop of `etharp_tmr`. -/
def ageEntry (entry : EtharpEntry) : EtharpEntry :=
  let entry := { entry with ctime := entry.ctime + 1 }
  if entry.state = .stable ∧ arpMaxage ≤ entry.ctime then { entry with state := .empty }
  else if entry.state = .pending ∧ arpMaxpending ≤ entry.ctime then { entry with state := .empty }
  else entry

/-- `etharp_tmr` ages every entry, whatever the others are. -/
def etharpTmr : ArpTable := fun i => ageEntry (table i)

/-- One turn of the second loop of `find_arp_entry`: `maxtime` and `j`. -/
def olderStable (oldest : UInt8 × Option (Fin arpTableSize)) (i : Fin arpTableSize) :
    UInt8 × Option (Fin arpTableSize) :=
  if (table i).state = .stable ∧ oldest.1 ≤ (table i).ctime then ((table i).ctime, some i) else oldest

/-- `find_arp_entry`, with `none` for `ARP_TABLE_SIZE`. -/
def findArpEntry : Option (Fin arpTableSize) :=
  match (List.finRange arpTableSize).find? fun i => (table i).state = .empty with
  | some i => some i
  | none => ((List.finRange arpTableSize).foldl (olderStable table) (0, none)).2

/-- The loops that look for an address pass over empty entries. -/
def entryFor (ipaddr : UInt32) : Option (Fin arpTableSize) :=
  (List.finRange arpTableSize).find? fun i => ipaddr = (table i).ipaddr ∧ (table i).state ≠ .empty

/-- `update_arp_entry`. It returns `NULL` in each case. -/
def updateArpEntry (netif : Netif) (ipaddr : UInt32) (ethaddr : EthAddr) (flags : UInt8) : ArpTable :=
  if ipaddr = 0 then table
  else
    match entryFor table ipaddr with
    | some i =>
      Function.update table i { table i with
        state := .stable
        ethaddr := copyAddr netif.hwaddrLen ethaddr (table i).ethaddr
        ctime := 0 }
    | none =>
      if etharpAlwaysInsert = true ∨ flags &&& arpInsertFlag ≠ 0 then
        match findArpEntry table with
        | none => table
        | some i =>
          Function.update table i
            { ipaddr := ipaddr
              ethaddr := copyAddr netif.hwaddrLen ethaddr (table i).ethaddr
              ctime := 0
              state := .stable }
      else table

/-- The first half of `etharp_query`, which finds the entry for a request or makes one.
With `none` it returns `NULL`, and no request is sent. -/
def queryEntry (ipaddr : UInt32) : Option ArpTable :=
  match entryFor table ipaddr with
  | some i => if (table i).state = .pending then some table else none
  | none =>
    match findArpEntry table with
    | none => none
    | some i =>
      some (Function.update table i { table i with ipaddr := ipaddr, ctime := 0, state := .pending })

/-- The table after `etharp_query`: with an entry taken for the address, where one was to
be had. -/
def queryTable (ipaddr : UInt32) : ArpTable := (queryEntry table ipaddr).getD table

/-- The search of `etharp_output`: the first stable entry for the address. -/
def lookup (ipaddr : UInt32) : Option (Fin arpTableSize) :=
  (List.finRange arpTableSize).find? fun i => (table i).state = .stable ∧ ipaddr = (table i).ipaddr

variable {table}

/-- A search of the table finds nothing. -/
theorem find_none {accept : Fin arpTableSize → Bool} :
    (List.finRange arpTableSize).find? accept = none ↔ ∀ i, accept i = false := by
  simp only [List.find?_eq_none, List.mem_finRange, true_implies, Bool.not_eq_true]

/-- The first entry in use for an address. -/
theorem entryFor_some {ipaddr : UInt32} {i : Fin arpTableSize} (found : entryFor table ipaddr = some i) :
    (table i).ipaddr = ipaddr ∧ (table i).state ≠ .empty := by
  have accepted := List.find?_some found
  obtain ⟨same, used⟩ := of_decide_eq_true accepted
  exact ⟨same.symm, used⟩

/-- There is no entry for an address if no entry in use has it. -/
theorem entryFor_none {ipaddr : UInt32} :
    entryFor table ipaddr = none ↔ ∀ i, (table i).state ≠ .empty → (table i).ipaddr ≠ ipaddr := by
  rw [entryFor, find_none]
  constructor
  · intro all i used same
    exact of_decide_eq_false (all i) ⟨same.symm, used⟩
  · intro all i
    apply decide_eq_false
    rintro ⟨same, used⟩
    exact all i used same.symm

/-- What the second loop of `find_arp_entry` has found among the entries it passed. -/
structure OldestOf (table : ArpTable) (passed : List (Fin arpTableSize))
    (oldest : UInt8 × Option (Fin arpTableSize)) : Prop where
  bound : ∀ i ∈ passed, (table i).state = .stable → (table i).ctime ≤ oldest.1 ∧ oldest.2 ≠ none
  entry : ∀ j ∈ oldest.2, (table j).state = .stable ∧ (table j).ctime = oldest.1
  start : oldest.2 = none → oldest.1 = 0

/-- One turn of the loop: an entry that is stable and at least as old takes the place of
the one found before. -/
theorem OldestOf.step {passed : List (Fin arpTableSize)} {oldest : UInt8 × Option (Fin arpTableSize)}
    (before : OldestOf table passed oldest) (i : Fin arpTableSize) :
    OldestOf table (passed ++ [i]) (olderStable table oldest i) := by
  rw [olderStable]
  split
  case isTrue older =>
    constructor
    · intro k member stable
      refine ⟨?_, Option.some_ne_none _⟩
      rcases List.mem_append.mp member with earlier | here
      · exact UInt8.le_trans (before.bound k earlier stable).1 older.2
      · rw [List.mem_singleton.mp here]
        exact UInt8.le_refl _
    · rintro j ⟨⟩
      exact ⟨older.1, rfl⟩
    · intro nothing
      cases nothing
  case isFalse younger =>
    refine ⟨?_, before.entry, before.start⟩
    intro k member stable
    rcases List.mem_append.mp member with earlier | here
    · exact before.bound k earlier stable
    · rw [List.mem_singleton.mp here] at stable ⊢
      have less : (table i).ctime < oldest.1 := by
        rw [← UInt8.not_le]
        exact fun atLeast => younger ⟨stable, atLeast⟩
      refine ⟨UInt8.le_of_lt less, ?_⟩
      intro nothing
      rw [before.start nothing] at less
      exact UInt8.not_lt_zero less

/-- After the loop the oldest stable entry of all those passed is found, if there is one. -/
theorem foldl_olderStable (table : ArpTable) (passed : List (Fin arpTableSize)) :
    OldestOf table passed (passed.foldl (olderStable table) (0, none)) := by
  induction passed using List.reverseRecOn with
  | nil =>
    constructor
    · intro i member
      cases member
    · intro j member
      cases member
    · exact fun _ => rfl
  | append_singleton passed last inductionHypothesis =>
    rw [List.foldl_append, List.foldl_cons, List.foldl_nil]
    exact inductionHypothesis.step last

/-- The entry that `find_arp_entry` gives: an empty one if there is one, or else a stable
one that is not younger than any other stable one. -/
structure Available (table : ArpTable) (i : Fin arpTableSize) : Prop where
  notPending : (table i).state ≠ .pending
  empty : (∃ j, (table j).state = .empty) → (table i).state = .empty
  oldest : (table i).state = .stable → ∀ j, (table j).state = .stable → (table j).ctime ≤ (table i).ctime

/-- What `find_arp_entry` returns is an empty entry, or the oldest stable one of a table
without an empty entry. -/
theorem findArpEntry_some {i : Fin arpTableSize} (found : findArpEntry table = some i) :
    Available table i := by
  rw [findArpEntry] at found
  split at found
  case h_1 first empty =>
    obtain rfl := Option.some.inj found
    have accepted := List.find?_some empty
    have isEmpty : (table first).state = .empty := of_decide_eq_true accepted
    constructor
    · rw [isEmpty]
      decide
    · exact fun _ => isEmpty
    · rw [isEmpty]
      intro stable
      cases stable
  case h_2 full =>
    have oldest := foldl_olderStable table (List.finRange arpTableSize)
    obtain ⟨stable, time⟩ := oldest.entry i found
    constructor
    · rw [stable]
      decide
    · rintro ⟨j, empty⟩
      exact absurd empty (of_decide_eq_false (find_none.mp full j))
    · intro _ j other
      rw [time]
      exact (oldest.bound j (List.mem_finRange j) other).1

/-- Without a usable entry every entry is pending. -/
theorem findArpEntry_none : findArpEntry table = none ↔ ∀ i, (table i).state = .pending := by
  rw [findArpEntry]
  split
  case h_1 first empty =>
    have accepted := List.find?_some empty
    have isEmpty : (table first).state = .empty := of_decide_eq_true accepted
    constructor
    · intro nothing
      cases nothing
    · intro all
      rw [all first] at isEmpty
      cases isEmpty
  case h_2 full =>
    have oldest := foldl_olderStable table (List.finRange arpTableSize)
    constructor
    · intro nothing i
      have notEmpty := of_decide_eq_false (find_none.mp full i)
      have notStable : (table i).state ≠ .stable := fun stable =>
        (oldest.bound i (List.mem_finRange i) stable).2 nothing
      cases state : (table i).state with
      | empty => exact absurd state notEmpty
      | pending => rfl
      | stable => exact absurd state notStable
    · intro all
      by_contra found
      obtain ⟨j, entry⟩ := Option.ne_none_iff_exists'.mp found
      have stable := (oldest.entry j entry).1
      rw [all j] at stable
      cases stable

/-- The entry that answers for an address. -/
theorem lookup_some {ipaddr : UInt32} {i : Fin arpTableSize} (found : lookup table ipaddr = some i) :
    (table i).state = .stable ∧ (table i).ipaddr = ipaddr := by
  have accepted := List.find?_some found
  obtain ⟨stable, same⟩ := of_decide_eq_true accepted
  exact ⟨stable, same.symm⟩

/-- The search finds nothing exactly if no stable entry is for the address. -/
theorem lookup_none {ipaddr : UInt32} :
    lookup table ipaddr = none ↔ ∀ i, (table i).state = .stable → (table i).ipaddr ≠ ipaddr := by
  rw [lookup, find_none]
  constructor
  · intro all i stable same
    exact of_decide_eq_false (all i) ⟨stable, same.symm⟩
  · intro all i
    apply decide_eq_false
    rintro ⟨stable, same⟩
    exact all i stable same.symm

end Ps2Eth.Etharp
