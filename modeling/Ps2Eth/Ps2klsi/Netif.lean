import Ps2Eth.Lib.Memory
import Ps2Eth.Ps2klsi.Framing

/-!
# The records of the ps2klsi driver, and `klsi_init`

`klsi_init` of `ps2klsi/ps2eth.c` sets up the `struct netif` it is given and the
`struct ethernetif` of the driver, `klsi_etherif`. Both are records in memory, with
32-bit pointers and the members of the headers in their order.
-/

namespace Ps2Eth.Ps2klsi

open CRecords

namespace Netif

/-- The members of `struct netif`. -/
inductive Field where
  | next
  | ipAddr
  | netmask
  | gw
  | input
  | output
  | linkoutput
  | state
  | dhcp
  | hwaddrLen
  | hwaddr
  | mtu
  | name
  | num
  | flags
deriving DecidableEq

/-- `struct netif`. A `struct ip_addr` is packed. -/
def members : List (Member Field) :=
  [⟨.next, 4, 4⟩, ⟨.ipAddr, 4, 1⟩, ⟨.netmask, 4, 1⟩, ⟨.gw, 4, 1⟩, ⟨.input, 4, 4⟩, ⟨.output, 4, 4⟩,
    ⟨.linkoutput, 4, 4⟩, ⟨.state, 4, 4⟩, ⟨.dhcp, 4, 4⟩, ⟨.hwaddrLen, 1, 1⟩, ⟨.hwaddr, 6, 1⟩,
    ⟨.mtu, 2, 2⟩, ⟨.name, 2, 1⟩, ⟨.num, 1, 1⟩, ⟨.flags, 1, 1⟩]

/-- Where each member of a `struct netif` stands. -/
def offset : Field → Nat
  | .next => 0
  | .ipAddr => 4
  | .netmask => 8
  | .gw => 12
  | .input => 16
  | .output => 20
  | .linkoutput => 24
  | .state => 28
  | .dhcp => 32
  | .hwaddrLen => 36
  | .hwaddr => 37
  | .mtu => 44
  | .name => 46
  | .num => 48
  | .flags => 49

/-- `sizeof(struct netif)`, the members and their padding. -/
def size : Nat := 52

/-- The offsets are those that the sizes and alignments of the members give. -/
theorem offset_eq (field : Field) : offset field = Member.offsetOf members field := by
  cases field <;> rfl

/-- So is the size, with the padding at the end. -/
theorem size_eq : size = Member.sizeOf members := rfl

end Netif

namespace IopSema

/-- The members of `iop_sema_t` that `low_level_init` sets. -/
inductive Field where
  | attr
  | option
  | initial
  | max
deriving DecidableEq

/-- These members of `iop_sema_t`, each a word. -/
def members : List (Member Field) := [⟨.attr, 4, 4⟩, ⟨.option, 4, 4⟩, ⟨.initial, 4, 4⟩, ⟨.max, 4, 4⟩]

/-- Where each member of an `iop_sema_t` stands. -/
def offset : Field → Nat
  | .attr => 0
  | .option => 4
  | .initial => 8
  | .max => 12

/-- `sizeof(iop_sema_t)`, four words. -/
def size : Nat := 16

/-- The offsets are those that the sizes and alignments of the members give. -/
theorem offset_eq (field : Field) : offset field = Member.offsetOf members field := by
  cases field <;> rfl

/-- So is the size. -/
theorem size_eq : size = Member.sizeOf members := rfl

end IopSema

namespace Ethernetif

/-- The members of `struct ethernetif`. -/
inductive Field where
  | ethaddr
  | epin
  | epout
  | epint
  | hcontrol
  | hin
  | hout
  | semin
  | hsemin
  | semout
  | hsemout
deriving DecidableEq

/-- `struct ethernetif`, with its two semaphore records in it. -/
def members : List (Member Field) :=
  [⟨.ethaddr, 4, 4⟩, ⟨.epin, 1, 1⟩, ⟨.epout, 1, 1⟩, ⟨.epint, 1, 1⟩, ⟨.hcontrol, 4, 4⟩, ⟨.hin, 4, 4⟩,
    ⟨.hout, 4, 4⟩, ⟨.semin, IopSema.size, 4⟩, ⟨.hsemin, 4, 4⟩, ⟨.semout, IopSema.size, 4⟩,
    ⟨.hsemout, 4, 4⟩]

/-- Where each member of a `struct ethernetif` stands. -/
def offset : Field → Nat
  | .ethaddr => 0
  | .epin => 4
  | .epout => 5
  | .epint => 6
  | .hcontrol => 8
  | .hin => 12
  | .hout => 16
  | .semin => 20
  | .hsemin => 36
  | .semout => 40
  | .hsemout => 56

/-- `sizeof(struct ethernetif)`, eight bytes more than the record that `linkoutput` hands
over. -/
def size : Nat := 60

/-- The offsets are those that the sizes and alignments of the members give. -/
theorem offset_eq (field : Field) : offset field = Member.offsetOf members field := by
  cases field <;> rfl

/-- So is the size. -/
theorem size_eq : size = Member.sizeOf members := rfl

/-- Every member lies inside of the record. -/
theorem members_inside : ∀ member ∈ members, offset member.field + member.size ≤ size := by decide

end Ethernetif

namespace EtharpEntry

/-- The members of `struct etharp_entry`, without the queue that `ARP_QUEUEING` would
add. A `struct ip_addr` and a `struct eth_addr` are packed. -/
inductive Field where
  | ipaddr
  | ethaddr
  | state
  | ctime
deriving DecidableEq

/-- These members of `struct etharp_entry`. -/
def members : List (Member Field) :=
  [⟨.ipaddr, 4, 1⟩, ⟨.ethaddr, 6, 1⟩, ⟨.state, 4, 4⟩, ⟨.ctime, 1, 1⟩]

/-- Where each member of a `struct etharp_entry` stands. -/
def offset : Field → Nat
  | .ipaddr => 0
  | .ethaddr => 4
  | .state => 12
  | .ctime => 16

/-- `sizeof(struct etharp_entry)`, the distance of two entries of the table. -/
def size : Nat := 20

/-- The offsets are those that the sizes and alignments of the members give. -/
theorem offset_eq (field : Field) : offset field = Member.offsetOf members field := by
  cases field <;> rfl

/-- So is the size, with the padding behind `ctime`. -/
theorem size_eq : size = Member.sizeOf members := rfl

end EtharpEntry

/-- `ARP_TABLE_SIZE`, the number of entries that the loops count to. -/
def arpTableSize : Nat := 10

/-- Two records do not meet. -/
def NoOverlap (first firstSize second secondSize : Nat) : Prop :=
  first + firstSize ≤ second ∨ second + secondSize ≤ first

/-- Where the driver's data and functions are. -/
structure Image where
  klsiEtherif : Nat
  arpTable : Nat
  ethernetifOutput : Nat
  lowLevelOutput : Nat
  short : klsiEtherif < 2 ^ 32 ∧ ethernetifOutput < 2 ^ 32 ∧ lowLevelOutput < 2 ^ 32
  apart : NoOverlap klsiEtherif Ethernetif.size arpTable (arpTableSize * EtharpEntry.size)

/-- Where a `struct netif` can be. -/
structure Image.Place (image : Image) (netif : Nat) : Prop where
  short : netif + Netif.size < 2 ^ 32
  apart : NoOverlap netif Netif.size image.klsiEtherif Ethernetif.size
  apartTable : NoOverlap netif Netif.size image.arpTable (arpTableSize * EtharpEntry.size)

/-- What `low_level_init` gets from elsewhere: `eaddr`, and the two semaphores that
`CreateSema` returns. -/
structure InitEnv where
  eaddr : Nat → UInt8
  hsemin : UInt32
  hsemout : UInt32

/-- One of the six assignments to `ethernetif->ethaddr->addr[i]`. -/
def storeEaddr (eaddr : Nat → UInt8) (ethernetif : Nat) (m : Memory) (i : Nat) : Memory :=
  m.store8 (m.load32 (ethernetif + Ethernetif.offset .ethaddr) + i) (eaddr i)

/-- The four assignments to the members of a semaphore's record. -/
def storeSema (m : Memory) (sema : Nat) : Memory :=
  (((m.store32 (sema + IopSema.offset .attr) 0).store32 (sema + IopSema.offset .option) 0).store32
    (sema + IopSema.offset .initial) 0).store32 (sema + IopSema.offset .max) 1

/-- `low_level_init`. The read thread that it starts is not followed. -/
def lowLevelInit (env : InitEnv) (m : Memory) (netif : Nat) : Memory :=
  let ethernetif := m.load32 (netif + Netif.offset .state)
  let m := (List.range 6).foldl (storeEaddr env.eaddr ethernetif) m
  let m := storeSema m (ethernetif + Ethernetif.offset .semin)
  let m := m.store32 (ethernetif + Ethernetif.offset .hsemin) env.hsemin.toNat
  let m := storeSema m (ethernetif + Ethernetif.offset .semout)
  m.store32 (ethernetif + Ethernetif.offset .hsemout) env.hsemout.toNat

/-- `ETHARP_STATE_EMPTY`, as the word with the state of an entry holds it. -/
def etharpStateEmpty : Nat := 0

/-- `etharp_init` stores the empty state in every entry, one word each. -/
def etharpInit (image : Image) (m : Memory) : Memory :=
  (List.range arpTableSize).foldl
    (fun m i => m.store32 (image.arpTable + i * EtharpEntry.size + EtharpEntry.offset .state)
      etharpStateEmpty) m

/-- The assignments of `klsi_init`, in its order; the `state` pointer leads to the record
of the driver. -/
def klsiInitFields (image : Image) (m : Memory) (netif : Nat) : Memory :=
  let ethernetif := image.klsiEtherif
  let m := m.store32 (netif + Netif.offset .state) ethernetif
  let m := m.store8 (netif + Netif.offset .name) 0x65
  let m := m.store8 (netif + Netif.offset .name + 1) 0x74
  let m := m.store32 (netif + Netif.offset .output) image.ethernetifOutput
  let m := m.store32 (netif + Netif.offset .linkoutput) image.lowLevelOutput
  m.store32 (ethernetif + Ethernetif.offset .ethaddr) (netif + Netif.offset .hwaddr)

/-- `klsi_init` fills in the record of the interface, then `low_level_init` the driver's
own, and last the table is emptied. -/
def klsiInit (image : Image) (env : InitEnv) (m : Memory) (netif : Nat) : Memory :=
  etharpInit image (lowLevelInit env (klsiInitFields image m netif) netif)

/-- The ARP table alone is cleared. -/
theorem etharpInit_apart (image : Image) (m : Memory) {index : Nat}
    (apart : NoOverlap index 1 image.arpTable (arpTableSize * EtharpEntry.size)) :
    etharpInit image m index = m index := by
  have cleared : ∀ count ≤ arpTableSize, (List.range count).foldl
      (fun m i => m.store32 (image.arpTable + i * EtharpEntry.size + EtharpEntry.offset .state)
        etharpStateEmpty) m index = m index := by
    intro count
    induction count with
    | zero => exact fun _ => rfl
    | succ count inductionHypothesis =>
      intro inside
      rw [List.range_succ, List.foldl_append, List.foldl_cons, List.foldl_nil, Memory.store32_apart,
        inductionHypothesis (Nat.le_of_succ_le inside)]
      simp only [NoOverlap, arpTableSize, EtharpEntry.size, EtharpEntry.offset] at apart inside ⊢
      omega
  exact cleared arpTableSize (Nat.le_refl _)

/-- The assignments to a semaphore's record stay in it. -/
theorem storeSema_apart {m : Memory} {sema index : Nat} (apart : NoOverlap index 1 sema IopSema.size) :
    storeSema m sema index = m index := by
  simp only [NoOverlap, IopSema.size] at apart
  simp only [storeSema, IopSema.offset]
  rw [Memory.store32_apart (by omega), Memory.store32_apart (by omega),
    Memory.store32_apart (by omega), Memory.store32_apart (by omega)]

/-- A word that does not meet a semaphore's record reads as before the assignments to
that. -/
theorem storeSema_load32 {m : Memory} {sema address : Nat}
    (apart : NoOverlap address 4 sema IopSema.size) :
    (storeSema m sema).load32 address = m.load32 address := by
  apply Memory.load32_congr
  intro index low high
  apply storeSema_apart
  simp only [NoOverlap] at apart ⊢
  omega

/-- The address is copied through `ethaddr`, which stays as it is. -/
theorem foldl_storeEaddr {m : Memory} {ethernetif ethaddr : Nat} (eaddr : Nat → UInt8)
    (pointer : m.load32 (ethernetif + Ethernetif.offset .ethaddr) = ethaddr)
    (apart : NoOverlap ethaddr 6 ethernetif Ethernetif.size) (index : Nat) :
    (List.range 6).foldl (storeEaddr eaddr ethernetif) m index =
      if ethaddr ≤ index ∧ index < ethaddr + 6 then eaddr (index - ethaddr) else m index := by
  have copied : ∀ count ≤ 6, ∀ index,
      (List.range count).foldl (storeEaddr eaddr ethernetif) m index =
        if ethaddr ≤ index ∧ index < ethaddr + count then eaddr (index - ethaddr) else m index := by
    intro count
    induction count with
    | zero =>
      intro _ index
      rw [if_neg (by omega), List.range_zero, List.foldl_nil]
    | succ count inductionHypothesis =>
      intro inside index
      have before := inductionHypothesis (Nat.le_of_succ_le inside)
      have same : ((List.range count).foldl (storeEaddr eaddr ethernetif) m).load32
          (ethernetif + Ethernetif.offset .ethaddr) = ethaddr := by
        rw [← pointer]
        apply Memory.load32_congr
        intro byte low high
        rw [before, if_neg]
        simp only [NoOverlap, Ethernetif.size, Ethernetif.offset] at apart low high
        omega
      rw [List.range_succ, List.foldl_append, List.foldl_cons, List.foldl_nil, storeEaddr, same]
      by_cases here : index = ethaddr + count
      · rw [here, Memory.store8_same, if_pos (by omega), Nat.add_sub_cancel_left]
      · rw [Memory.store8_apart here, before]
        have further : (ethaddr ≤ index ∧ index < ethaddr + count) ↔
            (ethaddr ≤ index ∧ index < ethaddr + (count + 1)) := by omega
        simp only [further]
  exact copied 6 (Nat.le_refl _) index

/-- `low_level_init` with both pointers known: the MAC address, the semaphore members
and the two handles are stored, and nothing else. -/
theorem lowLevelInit_apart {env : InitEnv} {m : Memory} {netif ethernetif ethaddr index : Nat}
    (state : m.load32 (netif + Netif.offset .state) = ethernetif)
    (pointer : m.load32 (ethernetif + Ethernetif.offset .ethaddr) = ethaddr)
    (noOverlap : NoOverlap ethaddr 6 ethernetif Ethernetif.size)
    (apart : NoOverlap index 1 (ethernetif + Ethernetif.offset .semin) 40) :
    lowLevelInit env m netif index =
      if ethaddr ≤ index ∧ index < ethaddr + 6 then env.eaddr (index - ethaddr) else m index := by
  simp only [NoOverlap, Ethernetif.offset] at apart
  rw [lowLevelInit, state]
  simp only [Ethernetif.offset]
  rw [Memory.store32_apart (by omega), storeSema_apart, Memory.store32_apart (by omega),
    storeSema_apart, foldl_storeEaddr env.eaddr pointer noOverlap]
  · simp only [NoOverlap, IopSema.size]
    omega
  · simp only [NoOverlap, IopSema.size]
    omega

/-- What `klsi_init` leaves in the two records. -/
structure Initialised (image : Image) (env : InitEnv) (before after : Memory) (netif : Nat) :
    Prop where
  state : after.load32 (netif + Netif.offset .state) = image.klsiEtherif
  output : after.load32 (netif + Netif.offset .output) = image.ethernetifOutput
  linkoutput : after.load32 (netif + Netif.offset .linkoutput) = image.lowLevelOutput
  hwaddr : ∀ i < 6, after (netif + Netif.offset .hwaddr + i) = env.eaddr i
  hwaddrLen : after (netif + Netif.offset .hwaddrLen) = before (netif + Netif.offset .hwaddrLen)
  addresses : ∀ i < 16, after (netif + Netif.offset .ipAddr + i) = before (netif + Netif.offset .ipAddr + i)
  pipes : ∀ i < 8, after (image.klsiEtherif + Ethernetif.offset .hin + i) =
    before (image.klsiEtherif + Ethernetif.offset .hin + i)
  hsemin : after.load32 (image.klsiEtherif + Ethernetif.offset .hsemin) = env.hsemin.toNat
  hsemout : after.load32 (image.klsiEtherif + Ethernetif.offset .hsemout) = env.hsemout.toNat

variable {image : Image} {netif : Nat}

/-- The record of the driver is found through `netif->state`. -/
theorem klsiInitFields_state (place : image.Place netif) (m : Memory) :
    (klsiInitFields image m netif).load32 (netif + Netif.offset .state) = image.klsiEtherif := by
  have apart := place.apart
  simp only [NoOverlap, Netif.size, Ethernetif.size] at apart
  simp only [klsiInitFields, Netif.offset, Ethernetif.offset]
  rw [Memory.load32_store32_apart (by omega), Memory.load32_store32_apart (by omega),
    Memory.load32_store32_apart (by omega), Memory.load32_store8_apart (by omega),
    Memory.load32_store8_apart (by omega), Memory.load32_store32 _ _ image.short.1]

/-- The address is stored in `netif->hwaddr`. -/
theorem klsiInitFields_ethaddr (place : image.Place netif) (m : Memory) :
    (klsiInitFields image m netif).load32 (image.klsiEtherif + Ethernetif.offset .ethaddr) =
      netif + Netif.offset .hwaddr := by
  have short := place.short
  simp only [Netif.size] at short
  apply Memory.load32_store32
  simp only [Netif.offset]
  omega

/-- Outside of the table and the semaphores, `klsi_init` changes what it assigns, and
the MAC address. -/
theorem klsiInit_at (place : image.Place netif) (env : InitEnv) (m : Memory) {index : Nat}
    (apartTable : NoOverlap index 1 image.arpTable (arpTableSize * EtharpEntry.size))
    (apartSemas : NoOverlap index 1 (image.klsiEtherif + Ethernetif.offset .semin) 40) :
    klsiInit image env m netif index =
      if netif + Netif.offset .hwaddr ≤ index ∧ index < netif + Netif.offset .hwaddr + 6 then
        env.eaddr (index - (netif + Netif.offset .hwaddr))
      else klsiInitFields image m netif index := by
  have noOverlap : NoOverlap (netif + Netif.offset .hwaddr) 6 image.klsiEtherif Ethernetif.size := by
    have apart := place.apart
    simp only [NoOverlap, Netif.size, Ethernetif.size, Netif.offset] at apart ⊢
    omega
  rw [klsiInit, etharpInit_apart _ _ apartTable,
    lowLevelInit_apart (klsiInitFields_state place m) (klsiInitFields_ethaddr place m) noOverlap
      apartSemas]

/-- A byte of the `netif` record is not in the table or the driver's record. -/
theorem Image.Place.apart_at (place : image.Place netif) {index : Nat} (low : netif ≤ index)
    (high : index < netif + Netif.size) :
    NoOverlap index 1 image.arpTable (arpTableSize * EtharpEntry.size) ∧
      NoOverlap index 1 (image.klsiEtherif + Ethernetif.offset .semin) 40 := by
  have apart := place.apart
  have apartTable := place.apartTable
  simp only [NoOverlap, Netif.size, Ethernetif.size, Ethernetif.offset, arpTableSize,
    EtharpEntry.size] at apart apartTable high ⊢
  omega

/-- Of the `netif` record, only the MAC address is set later than the fields. -/
theorem klsiInit_netif (place : image.Place netif) (env : InitEnv) (m : Memory) {index : Nat}
    (low : netif ≤ index) (high : index < netif + Netif.size)
    (other : NoOverlap index 1 (netif + Netif.offset .hwaddr) 6) :
    klsiInit image env m netif index = klsiInitFields image m netif index := by
  obtain ⟨apartTable, apartSemas⟩ := place.apart_at low high
  rw [klsiInit_at place env m apartTable apartSemas, if_neg]
  simp only [NoOverlap] at other
  omega

/-- A pointer of the `netif` record keeps the value it was assigned. -/
theorem klsiInit_pointer (place : image.Place netif) (env : InitEnv) (m : Memory) {offset : Nat}
    (before : offset + 4 ≤ Netif.offset .hwaddr) :
    (klsiInit image env m netif).load32 (netif + offset) =
      (klsiInitFields image m netif).load32 (netif + offset) := by
  apply Memory.load32_congr
  intro index low high
  simp only [Netif.offset] at before
  apply klsiInit_netif place
  · omega
  · simp only [Netif.size]
    omega
  · simp only [NoOverlap, Netif.offset]
    omega

/-- Where nothing is assigned, the record stays. -/
theorem klsiInitFields_kept (place : image.Place netif) (m : Memory) {offset : Nat}
    (inside : offset < Netif.size)
    (other : offset < 20 ∨ 32 ≤ offset ∧ offset < 46 ∨ 48 ≤ offset) :
    klsiInitFields image m netif (netif + offset) = m (netif + offset) := by
  have apart := place.apart
  simp only [NoOverlap, Netif.size, Ethernetif.size] at apart inside
  simp only [klsiInitFields, Netif.offset, Ethernetif.offset]
  rw [Memory.store32_apart (by omega), Memory.store32_apart (by omega),
    Memory.store32_apart (by omega), Memory.store8_apart (by omega), Memory.store8_apart (by omega),
    Memory.store32_apart (by omega)]

/-- `netif->output` and `netif->linkoutput` are the two output functions. -/
theorem klsiInitFields_outputs (place : image.Place netif) (m : Memory) :
    (klsiInitFields image m netif).load32 (netif + Netif.offset .output) = image.ethernetifOutput ∧
      (klsiInitFields image m netif).load32 (netif + Netif.offset .linkoutput) =
        image.lowLevelOutput := by
  have apart := place.apart
  simp only [NoOverlap, Netif.size, Ethernetif.size] at apart
  simp only [klsiInitFields, Netif.offset, Ethernetif.offset]
  constructor
  · rw [Memory.load32_store32_apart (by omega), Memory.load32_store32_apart (by omega),
      Memory.load32_store32 _ _ image.short.2.1]
  · rw [Memory.load32_store32_apart (by omega), Memory.load32_store32 _ _ image.short.2.2]

/-- The pipes of the device stay. -/
theorem klsiInit_pipes (place : image.Place netif) (env : InitEnv) (m : Memory) {i : Nat}
    (inside : i < 8) :
    klsiInit image env m netif (image.klsiEtherif + Ethernetif.offset .hin + i) =
      m (image.klsiEtherif + Ethernetif.offset .hin + i) := by
  have apart := place.apart
  have apartTable := image.apart
  simp only [NoOverlap, Netif.size, Ethernetif.size, arpTableSize, EtharpEntry.size]
    at apart apartTable
  rw [klsiInit_at place env m, if_neg]
  · simp only [klsiInitFields, Netif.offset, Ethernetif.offset]
    rw [Memory.store32_apart (by omega), Memory.store32_apart (by omega),
      Memory.store32_apart (by omega), Memory.store8_apart (by omega),
      Memory.store8_apart (by omega), Memory.store32_apart (by omega)]
  · simp only [Netif.offset, Ethernetif.offset]
    omega
  · simp only [NoOverlap, Ethernetif.offset, arpTableSize, EtharpEntry.size]
    omega
  · simp only [NoOverlap, Ethernetif.offset]
    omega

/-- The handles of the two semaphores are stored in the driver's record. -/
theorem klsiInit_semas (place : image.Place netif) (env : InitEnv) (m : Memory) :
    (klsiInit image env m netif).load32 (image.klsiEtherif + Ethernetif.offset .hsemin) =
        env.hsemin.toNat ∧
      (klsiInit image env m netif).load32 (image.klsiEtherif + Ethernetif.offset .hsemout) =
        env.hsemout.toNat := by
  have cleared : ∀ offset, offset + 4 ≤ Ethernetif.size →
      (klsiInit image env m netif).load32 (image.klsiEtherif + offset) =
        (lowLevelInit env (klsiInitFields image m netif) netif).load32 (image.klsiEtherif + offset) := by
    intro offset inside
    apply Memory.load32_congr
    intro index low high
    apply etharpInit_apart
    have apartTable := image.apart
    simp only [NoOverlap, Ethernetif.size, arpTableSize, EtharpEntry.size] at apartTable inside ⊢
    omega
  constructor
  · rw [cleared _ (by decide), lowLevelInit, klsiInitFields_state place]
    simp only [Ethernetif.offset]
    rw [Memory.load32_store32_apart (by omega), storeSema_load32, Memory.load32_store32]
    · exact env.hsemin.toNat_lt
    · simp only [NoOverlap, IopSema.size]
      omega
  · rw [cleared _ (by decide), lowLevelInit, klsiInitFields_state place, Memory.load32_store32]
    exact env.hsemout.toNat_lt

/-- `klsi_init` sets what it sets, and leaves `hwaddr_len`, the addresses, `input` and the
pipes of the device as they were. -/
theorem klsiInit_initialised (place : image.Place netif) (env : InitEnv) (m : Memory) :
    Initialised image env m (klsiInit image env m netif) netif := by
  have outputs := klsiInitFields_outputs place m
  have semas := klsiInit_semas place env m
  constructor
  · rw [klsiInit_pointer place env m (by decide), klsiInitFields_state place]
  · rw [klsiInit_pointer place env m (by decide), outputs.1]
  · rw [klsiInit_pointer place env m (by decide), outputs.2]
  · intro i inside
    have low : netif ≤ netif + Netif.offset .hwaddr + i := by omega
    have high : netif + Netif.offset .hwaddr + i < netif + Netif.size := by
      simp only [Netif.offset, Netif.size]
      omega
    obtain ⟨apartTable, apartSemas⟩ := place.apart_at low high
    rw [klsiInit_at place env m apartTable apartSemas, if_pos (by omega), Nat.add_sub_cancel_left]
  · rw [klsiInit_netif place, klsiInitFields_kept place _ (by decide) (by decide)]
    · exact Nat.le_add_right _ _
    · exact Nat.add_lt_add_left (by decide) _
    · simp only [NoOverlap, Netif.offset]
      omega
  · intro i inside
    have high : Netif.offset .ipAddr + i < Netif.size := by
      simp only [Netif.offset, Netif.size]
      omega
    rw [klsiInit_netif place, Nat.add_assoc,
      klsiInitFields_kept place m high (by simp only [Netif.offset]; omega)]
    · omega
    · simp only [Netif.offset, Netif.size]
      omega
    · simp only [NoOverlap, Netif.offset]
      omega
  · exact fun i inside => klsiInit_pipes place env m inside
  · exact semas.1
  · exact semas.2

end Ps2Eth.Ps2klsi
