import Ps2Eth.Ps2klsi.Netif

/-!
# Two ways to `low_level_output`

`ethernetif_output` of `ps2klsi/ps2eth.c` passes `netif->state` to `low_level_output`.
The ARP module of `common/lwip/etharp.c` calls it through `netif->linkoutput`, and
passes the `netif` record itself: the pipe and the semaphore are then read at the
offsets of `struct ethernetif` in a `struct netif`.
-/

namespace Ps2Eth.Ps2klsi

open CRecords

/-- The members of a record that are read later hold in one memory what they held in
another. -/
def Same {Field : Type} (members : List (Member Field)) (offset : Field → Nat)
    (reads : Field → Bool) (record : Nat) (earlier now : Memory) : Prop :=
  ∀ member ∈ members, reads member.field = true → ∀ i < member.size,
    now (record + offset member.field + i) = earlier (record + offset member.field + i)

/-- The members of `struct netif` that the driver, the ARP module and the IP layer read when
a frame is sent. `netif_add` links the record into its list, through `next`, only when
`klsi_init` has returned, and the other members are for the layers above. -/
def Netif.reads : Netif.Field → Bool
  | .ipAddr | .netmask | .gw | .input | .output | .linkoutput | .state | .hwaddrLen | .hwaddr => true
  | .next | .dhcp | .mtu | .name | .num | .flags => false

/-- The members of `struct ethernetif` that transfers need: the pipes and the semaphores. -/
def Ethernetif.reads : Ethernetif.Field → Bool
  | .hin | .hout | .hsemin | .hsemout => true
  | .ethaddr | .epin | .epout | .epint | .hcontrol | .semin | .semout => false

/-- A record that `klsi_init` set up, at any later time: what is read of the two records is
as it left it. -/
structure SetUp (image : Image) (env : InitEnv) (before now : Memory) (netif : Nat) : Prop where
  place : image.Place netif
  record : Same Netif.members Netif.offset Netif.reads netif (klsiInit image env before netif) now
  device : Same Ethernetif.members Ethernetif.offset Ethernetif.reads image.klsiEtherif
    (klsiInit image env before netif) now

variable {image : Image} {env : InitEnv} {before now : Memory} {netif : Nat}

/-- A record is set up when `klsi_init` returns. -/
theorem klsiInit_setUp (place : image.Place netif) (env : InitEnv) (before : Memory) :
    SetUp image env before (klsiInit image env before netif) netif :=
  ⟨place, fun _ _ _ _ _ => rfl, fun _ _ _ _ _ => rfl⟩

/-- A member of four bytes that is read holds the same word in both memories. -/
theorem Same.word {Field : Type} {members : List (Member Field)} {offset : Field → Nat}
    {reads : Field → Bool} {record : Nat} {earlier : Memory}
    (same : Same members offset reads record earlier now) (field : Field) (align : Nat)
    (member : ⟨field, 4, align⟩ ∈ members) (isRead : reads field = true) :
    now.load32 (record + offset field) = earlier.load32 (record + offset field) := by
  apply Memory.load32_congr
  intro index low high
  obtain ⟨i, rfl⟩ := Nat.exists_eq_add_of_le low
  exact same _ member isRead i (by simp only; omega)

/-- The four addresses of the interface, `ip_addr` to `input`, stand one behind the other,
and all of them are read. -/
theorem SetUp.addressByte (setUp : SetUp image env before now netif) {i : Nat} (inside : i < 16) :
    now (netif + Netif.offset .ipAddr + i) =
      klsiInit image env before netif (netif + Netif.offset .ipAddr + i) := by
  have byte (field : Netif.Field) (align : Nat) (member : ⟨field, 4, align⟩ ∈ Netif.members)
      (isRead : Netif.reads field = true) (low : Netif.offset field ≤ Netif.offset .ipAddr + i)
      (high : Netif.offset .ipAddr + i < Netif.offset field + 4) :
      now (netif + Netif.offset .ipAddr + i) =
        klsiInit image env before netif (netif + Netif.offset .ipAddr + i) := by
    have held := setUp.record _ member isRead (Netif.offset .ipAddr + i - Netif.offset field)
      (by simp only; omega)
    rwa [Nat.add_assoc, Nat.add_sub_cancel' low, ← Nat.add_assoc] at held
  rcases Nat.lt_or_ge i 4 with first | behind
  · exact byte .ipAddr 1 (by decide) rfl (by simp only [Netif.offset]; omega)
      (by simp only [Netif.offset]; omega)
  rcases Nat.lt_or_ge i 8 with second | behind
  · exact byte .netmask 1 (by decide) rfl (by simp only [Netif.offset]; omega)
      (by simp only [Netif.offset]; omega)
  rcases Nat.lt_or_ge i 12 with third | behind
  · exact byte .gw 1 (by decide) rfl (by simp only [Netif.offset]; omega)
      (by simp only [Netif.offset]; omega)
  · exact byte .input 4 (by decide) rfl (by simp only [Netif.offset]; omega)
      (by simp only [Netif.offset]; omega)

/-- What `klsi_init` set is still set. -/
theorem SetUp.initialised (setUp : SetUp image env before now netif) :
    Initialised image env before now netif := by
  have initialised := klsiInit_initialised setUp.place env before
  constructor
  · rw [setUp.record.word .state 4 (by decide) rfl, initialised.state]
  · rw [setUp.record.word .output 4 (by decide) rfl, initialised.output]
  · rw [setUp.record.word .linkoutput 4 (by decide) rfl, initialised.linkoutput]
  · intro i inside
    rw [setUp.record ⟨.hwaddr, 6, 1⟩ (by decide) rfl i inside, initialised.hwaddr i inside]
  · rw [← initialised.hwaddrLen]
    exact setUp.record ⟨.hwaddrLen, 1, 1⟩ (by decide) rfl 0 (by decide)
  · intro i inside
    rw [setUp.addressByte inside, initialised.addresses i inside]
  · intro i inside
    rw [← initialised.pipes i inside]
    rcases Nat.lt_or_ge i 4 with first | behind
    · exact setUp.device ⟨.hin, 4, 4⟩ (by decide) rfl i first
    · have held := setUp.device ⟨.hout, 4, 4⟩ (by decide) rfl (i - 4) (by simp only; omega)
      simp only [Ethernetif.offset, Nat.add_assoc] at held ⊢
      rwa [show 16 + (i - 4) = 12 + i by omega] at held
  · rw [setUp.device.word .hsemin 4 (by decide) rfl, initialised.hsemin]
  · rw [setUp.device.word .hsemout 4 (by decide) rfl, initialised.hsemout]

/-- The addresses of the interface and `netif->input` are what they were before `klsi_init`. -/
theorem SetUp.addressWord (setUp : SetUp image env before now netif) {offset : Nat}
    (low : Netif.offset .ipAddr ≤ offset) (high : offset ≤ Netif.offset .input) :
    now.load32 (netif + offset) = before.load32 (netif + offset) := by
  apply Memory.load32_congr
  intro index start stop
  obtain ⟨i, rfl⟩ := Nat.exists_eq_add_of_le (show netif + Netif.offset .ipAddr ≤ index by omega)
  apply setUp.initialised.addresses
  simp only [Netif.offset] at low high stop
  omega

/-- The pipe for output is what it was before `klsi_init`. -/
theorem SetUp.houtWord (setUp : SetUp image env before now netif) :
    now.load32 (image.klsiEtherif + Ethernetif.offset .hout) =
      before.load32 (image.klsiEtherif + Ethernetif.offset .hout) := by
  apply Memory.load32_congr
  intro index low high
  obtain ⟨i, rfl⟩ := Nat.exists_eq_add_of_le low
  have kept := setUp.initialised.pipes (4 + i) (by omega)
  rw [← Nat.add_assoc] at kept
  exact kept

/-- A transfer that `kue_do_transfer` is asked for. -/
structure BulkOut where
  pipe : Nat
  sema : Nat
  data : List UInt8
deriving DecidableEq

/-- `low_level_output`, with the address it got for `ethernetif`. -/
def lowLevelOutput (m : Memory) (ethernetif : Nat) (outbuffer : Nat → UInt8) (p : PBuf) : BulkOut where
  pipe := m.load32 (ethernetif + Ethernetif.offset .hout)
  sema := m.load32 (ethernetif + Ethernetif.offset .hsemout)
  data := sentBytes outbuffer p

/-- `netif->linkoutput(netif, p)`, if the pointer is to `low_level_output`. -/
def callLinkoutput (image : Image) (m : Memory) (netif : Nat) (outbuffer : Nat → UInt8) (p : PBuf) :
    Option BulkOut :=
  if m.load32 (netif + Netif.offset .linkoutput) = image.lowLevelOutput then
    some (lowLevelOutput m netif outbuffer p)
  else none

/-- `low_level_output(netif->state, p)`, the call that `ethernetif_output` makes for an IP
packet. -/
def stateOutput (m : Memory) (netif : Nat) (outbuffer : Nat → UInt8) (p : PBuf) : BulkOut :=
  lowLevelOutput m (m.load32 (netif + Netif.offset .state)) outbuffer p

/-- Both ways start the transfer of the frame on the pipe and the semaphore of the
driver's record. -/
structure Agree (image : Image) (m : Memory) (netif : Nat) (outbuffer : Nat → UInt8) (p : PBuf) :
    Prop where
  same : callLinkoutput image m netif outbuffer p = some (stateOutput m netif outbuffer p)
  pipe : (stateOutput m netif outbuffer p).pipe =
    m.load32 (image.klsiEtherif + Ethernetif.offset .hout)
  sema : (stateOutput m netif outbuffer p).sema =
    m.load32 (image.klsiEtherif + Ethernetif.offset .hsemout)

/-- Through `netif->state` the driver's record is used. -/
theorem SetUp.stateOutput_eq (setUp : SetUp image env before now netif) (outbuffer : Nat → UInt8)
    (p : PBuf) :
    stateOutput now netif outbuffer p = lowLevelOutput now image.klsiEtherif outbuffer p := by
  rw [stateOutput, setUp.initialised.state]

/-- Through `netif->linkoutput` the `netif` record is used: `input` stands for the pipe,
and a word behind the record for the semaphore. -/
theorem SetUp.callLinkoutput_eq (setUp : SetUp image env before now netif)
    (outbuffer : Nat → UInt8) (p : PBuf) :
    callLinkoutput image now netif outbuffer p =
      some ⟨now.load32 (netif + Netif.offset .input), now.load32 (netif + (Netif.size + 4)),
        sentBytes outbuffer p⟩ := by
  have input : Ethernetif.offset .hout = Netif.offset .input := rfl
  have behind : Ethernetif.offset .hsemout = Netif.size + 4 := rfl
  rw [callLinkoutput, if_pos setUp.initialised.linkoutput, lowLevelOutput, input, behind]

/-- The two ways agree exactly when the `input` pointer happens to be the handle of the
pipe, and the word behind the record the handle of the semaphore.

Proof: the two calls are evaluated on the record as it was set up. They hand over the same
frame, so they agree where pipe and semaphore are the same, and those are words of memory
that the set-up has not written. -/
theorem linkoutput_agrees (setUp : SetUp image env before now netif) (outbuffer : Nat → UInt8)
    (p : PBuf) :
    Agree image now netif outbuffer p ↔
      before.load32 (netif + Netif.offset .input) =
          before.load32 (image.klsiEtherif + Ethernetif.offset .hout) ∧
        now.load32 (netif + (Netif.size + 4)) = env.hsemout.toNat := by
  rw [← setUp.addressWord (by decide) (Nat.le_refl _), ← setUp.houtWord, ← setUp.initialised.hsemout]
  constructor
  · intro agree
    have same := agree.same
    rw [setUp.callLinkoutput_eq, setUp.stateOutput_eq, lowLevelOutput] at same
    have transfers := BulkOut.mk.inj (Option.some.inj same)
    exact ⟨transfers.1, transfers.2.1⟩
  · rintro ⟨input, behind⟩
    constructor
    · rw [setUp.callLinkoutput_eq, setUp.stateOutput_eq, lowLevelOutput, input, behind]
    · rw [setUp.stateOutput_eq, lowLevelOutput]
    · rw [setUp.stateOutput_eq, lowLevelOutput]

/-- A place for the driver. -/
def exampleImage : Image where
  klsiEtherif := 0x1000
  arpTable := 0x2000
  ethernetifOutput := 0x3000
  lowLevelOutput := 0x3100
  short := by decide
  apart := Or.inl (by decide)

/-- The records of the example do not meet and stand in memory. -/
theorem exampleImage_place : exampleImage.Place 0x4000 where
  short := by decide
  apart := Or.inr (by decide)
  apartTable := Or.inr (by decide)

/-- A record whose `input` is `0x5000`, and a device whose pipe for output is 3. -/
def exampleMemory : Memory :=
  Function.update (Function.update (fun _ => 0) 0x4011 0x50) 0x1010 3

/-- What the USB stack and the kernel gave the driver of the example: an address of six
bytes and two semaphores. -/
def exampleEnv : InitEnv := ⟨fun i => UInt8.ofNat (i + 1), 7, 8⟩

/-- In the example the two ways of sending agree exactly if two words of the memory before
happen to hold what the driver's own record holds. -/
theorem linkoutput_agrees_example :
    Agree exampleImage (klsiInit exampleImage exampleEnv exampleMemory 0x4000) 0x4000 (fun _ => 0)
        ⟨1, [[5]]⟩ ↔
      exampleMemory.load32 (0x4000 + Netif.offset .input) =
          exampleMemory.load32 (0x1000 + Ethernetif.offset .hout) ∧
        (klsiInit exampleImage exampleEnv exampleMemory 0x4000).load32 (0x4000 + (Netif.size + 4)) =
          exampleEnv.hsemout.toNat :=
  linkoutput_agrees (klsiInit_setUp exampleImage_place exampleEnv exampleMemory) (fun _ => 0) ⟨1, [[5]]⟩

/-- A frame leaves on another pipe: the address of `input` is taken for it. -/
theorem linkoutput_differs : ∃ image env before now netif,
    SetUp image env before now netif ∧ ¬ Agree image now netif (fun _ => 0) ⟨1, [[5]]⟩ := by
  have setUp := klsiInit_setUp exampleImage_place exampleEnv exampleMemory
  refine ⟨exampleImage, exampleEnv, exampleMemory, _, 0x4000, setUp, ?_⟩
  intro agree
  have same := agree.same
  rw [setUp.callLinkoutput_eq, setUp.stateOutput_eq, lowLevelOutput,
    setUp.addressWord (by decide) (Nat.le_refl _), setUp.houtWord] at same
  have pipes := (BulkOut.mk.inj (Option.some.inj same)).1
  exact absurd pipes (by decide)

end Ps2Eth.Ps2klsi
