import Ps2Eth.Smap.StartGate

/-!
# The MAC address in the two drivers of the Sony adapter

`smap_init` of `smap/smap.c` swaps the bytes of the EEPROM words with shifts and casts,
and `SMAPGetMACAddress` takes the address from the registers again. `GetNodeAddr` of
`smap-linux/smap.c` reads the words into the bytes of `au8HWAddr`, `EMAC3SetDefValue`
packs these for the registers, and `SMap_GetMACAddress` returns them as they are.

Both run on a little-endian processor. The words are delivered by `dev9GetEEPROM` and
by `ReadFromEEPROM`.
-/

namespace Ps2Eth

/-- Four bytes in a register, the first of them the highest. -/
def packed (b0 b1 b2 b3 : BitVec 8) : BitVec 32 :=
  b0.setWidth 32 <<< 24 ||| b1.setWidth 32 <<< 16 ||| b2.setWidth 32 <<< 8 ||| b3.setWidth 32

/-- The bytes of a register, the highest first. -/
theorem packed_bytes (b0 b1 b2 b3 : BitVec 8) :
    (packed b0 b1 b2 b3 >>> 24).setWidth 8 = b0 ∧ (packed b0 b1 b2 b3 >>> 16).setWidth 8 = b1 ∧
      (packed b0 b1 b2 b3 >>> 8).setWidth 8 = b2 ∧ (packed b0 b1 b2 b3).setWidth 8 = b3 := by
  refine ⟨?_, ?_, ?_, ?_⟩
  all_goals
    apply BitVec.eq_of_getLsbD_eq
    intro bit inside
    simp only [packed, BitVec.getLsbD_setWidth, BitVec.getLsbD_or, BitVec.getLsbD_shiftLeft,
      BitVec.getLsbD_ushiftRight]
    grind

namespace Smap

open SmapInit

/-- `SMAPGetMACAddress`: the buffer, from the two address registers. -/
def smapGetMACAddress (mac_address_hi mac_address_lo : BitVec 32) : List (BitVec 8) :=
  [(mac_address_hi >>> 8).setWidth 8, mac_address_hi.setWidth 8,
    (mac_address_lo >>> 24).setWidth 8, (mac_address_lo >>> 16).setWidth 8,
    (mac_address_lo >>> 8).setWidth 8, mac_address_lo.setWidth 8]

/-- The value of a register after one more effect. -/
def setBy (reg : Emac3Reg) (last : Option (BitVec 32)) : Effect → Option (BitVec 32)
  | .setEmac3 tested value => if tested = reg then some value else last
  | _ => last

/-- The value that a register was last set to, which is what it reads. -/
def lastSet (reg : Emac3Reg) (effects : List Effect) : Option (BitVec 32) :=
  effects.foldl (setBy reg) none

end Smap

namespace SmapLinux

/-- Words as bytes in memory, the low byte first. -/
def bytesOf (words : List (BitVec 16)) : List (BitVec 8) :=
  words.flatMap fun word : BitVec 16 => [word.setWidth 8, (word >>> 8).setWidth 8]

/-- `GetNodeAddr`: whether it returns 0, and `au8HWAddr`. -/
def getNodeAddr (readFromEEPROM : BitVec 8 → Nat → List (BitVec 16)) : Bool × List (BitVec 8) :=
  let pu16MAC := readFromEEPROM 0 3
  let u16CHKSum := (readFromEEPROM 3 1).headD 0
  let u16Sum := pu16MAC.foldl (· + ·) 0
  if u16Sum ≠ u16CHKSum then (false, List.replicate 6 0) else (true, bytesOf pu16MAC)

/-- The address registers as `EMAC3SetDefValue` sets them: `ADDR_HI` and `ADDR_LO`. -/
def emac3SetAddr (au8HWAddr : List (BitVec 8)) : BitVec 32 × BitVec 32 :=
  let byte := fun index => (au8HWAddr.getD index 0).setWidth 32
  (byte 0 <<< 8 ||| byte 1, byte 2 <<< 24 ||| byte 3 <<< 16 ||| byte 4 <<< 8 ||| byte 5)

/-- `SMap_GetMACAddress` copies the six bytes that `GetNodeAddr` left in the driver's
data. -/
def sMapGetMACAddress (au8HWAddr : List (BitVec 8)) : List (BitVec 8) := au8HWAddr

end SmapLinux

open Smap Smap.SmapInit SmapLinux

/-- `ReadFromEEPROM` delivers the words in order. -/
def Delivers (readFromEEPROM : BitVec 8 → Nat → List (BitVec 16)) (data : EepromData) : Prop :=
  ∀ address count, address.toNat + count ≤ 4 →
    readFromEEPROM address count =
      ([data.w0, data.w1, data.w2, data.w3].drop address.toNat).take count

/-- `smap_init` gets as far as the address. -/
structure Reaches (spdCapsSmap : BitVec 16) (env : Environment) : Prop where
  caps : refusesCaps spdCapsSmap env.rev3 = false
  revision : 0x11 ≤ env.rev1
  txFifo : resetDone env.txFifoReset = true
  rxFifo : resetDone env.rxFifoReset = true
  emac3 : resetDone env.emac3Reset = true
  eeprom : 0 ≤ env.getEeprom

/-- The address that the EEPROM holds. -/
def addressOf (data : EepromData) : List (BitVec 8) := bytesOf [data.w0, data.w1, data.w2]

/-- The two drivers take an address alike: they program the same registers and report
the bytes of the EEPROM. -/
structure SameAddress (data : EepromData) (effects : List Effect) (au8HWAddr : List (BitVec 8)) :
    Prop where
  hi : Smap.lastSet .addrHi effects = some (emac3SetAddr au8HWAddr).1
  lo : Smap.lastSet .addrLo effects = some (emac3SetAddr au8HWAddr).2
  smap : ∀ hi lo, Smap.lastSet .addrHi effects = some hi → Smap.lastSet .addrLo effects = some lo →
    Smap.smapGetMACAddress hi lo = addressOf data
  linux : sMapGetMACAddress au8HWAddr = addressOf data

/-- The bytes of a word swapped, in a register. -/
theorem swapped_packed (word : BitVec 16) :
    (swapped word).setWidth 32 =
      (word.setWidth 8).setWidth 32 <<< 8 ||| ((word >>> 8).setWidth 8).setWidth 32 := by
  apply BitVec.eq_of_getLsbD_eq
  intro bit inside
  simp only [swapped, BitVec.getLsbD_setWidth, BitVec.getLsbD_or, BitVec.getLsbD_shiftLeft,
    BitVec.getLsbD_ushiftRight]
  rcases Nat.lt_or_ge bit 8 with low | high
  · grind
  · rcases Nat.lt_or_ge bit 16 with middle | outside
    · grind
    · grind

/-- `smap_init` sets the registers to what the bytes of the words are packed to. -/
theorem addr_packed (data : EepromData) :
    addrHi data = (emac3SetAddr (addressOf data)).1 ∧
      addrLo data = (emac3SetAddr (addressOf data)).2 := by
  constructor
  · exact swapped_packed data.w0
  · rw [addrLo, swapped_packed, swapped_packed, BitVec.shiftLeft_or_distrib, ← BitVec.shiftLeft_add,
      ← BitVec.or_assoc]
    rfl

/-- `SMAPGetMACAddress` takes the bytes out of the registers that they were packed in. -/
theorem smapGetMACAddress_packed (data : EepromData) :
    Smap.smapGetMACAddress (emac3SetAddr (addressOf data)).1 (emac3SetAddr (addressOf data)).2 =
      addressOf data := by
  obtain ⟨-, -, b0, b1⟩ := packed_bytes 0 0 (data.w0.setWidth 8) ((data.w0 >>> 8).setWidth 8)
  obtain ⟨b2, b3, b4, b5⟩ := packed_bytes (data.w1.setWidth 8) ((data.w1 >>> 8).setWidth 8)
    (data.w2.setWidth 8) ((data.w2 >>> 8).setWidth 8)
  have hi : (emac3SetAddr (addressOf data)).1 =
      packed 0 0 (data.w0.setWidth 8) ((data.w0 >>> 8).setWidth 8) := by
    simp [packed, emac3SetAddr, addressOf, bytesOf]
  have lo : (emac3SetAddr (addressOf data)).2 = packed (data.w1.setWidth 8)
      ((data.w1 >>> 8).setWidth 8) (data.w2.setWidth 8) ((data.w2 >>> 8).setWidth 8) := rfl
  rw [Smap.smapGetMACAddress, hi, lo, b0, b1, b2, b3, b4, b5]
  rfl

/-- What `GetNodeAddr` makes of the words that are delivered. -/
theorem getNodeAddr_delivered {readFromEEPROM : BitVec 8 → Nat → List (BitVec 16)} {data : EepromData}
    (delivers : Delivers readFromEEPROM data) :
    getNodeAddr readFromEEPROM =
      if checksum16 data ≠ data.w3 then (false, List.replicate 6 0) else (true, addressOf data) := by
  have words : readFromEEPROM 0 3 = [data.w0, data.w1, data.w2] := delivers 0 3 (by decide)
  have sum : readFromEEPROM 3 1 = [data.w3] := delivers 3 1 (by decide)
  have start : (0 : BitVec 16) + data.w0 = data.w0 := BitVec.zero_add _
  rw [getNodeAddr, words, sum]
  simp only [List.foldl_cons, List.foldl_nil, start, List.headD_cons, checksum16, addressOf]
  rfl

/-- What `smap_init` does from the EEPROM on. -/
theorem Reaches.bringUp {spdCapsSmap : BitVec 16} {env : Environment}
    (reaches : Reaches spdCapsSmap env) (settings : Settings) :
    SmapInit.bringUp spdCapsSmap env settings =
      if env.eepromData.w0 = 0 ∧ env.eepromData.w1 = 0 ∧ env.eepromData.w2 = 0 then (-5, quiet)
      else if checksum16 env.eepromData ≠ env.eepromData.w3 then (-5, quiet)
      else ((initializeDriver env settings).1, quiet ++ setUpEmac3 env.eepromData ++ registerCallbacks ++
        (initializeDriver env settings).2) := by
  obtain ⟨caps, revision, txFifo, rxFifo, emac3, eeprom⟩ := reaches
  rw [SmapInit.bringUp, if_neg (by simp [caps]), if_neg (by simpa using revision),
    if_neg (by simp [txFifo]), if_neg (by simp [rxFifo]), if_neg (by simp [emac3]),
    if_neg (by omega)]

/-- The address registers after `smap_init` has gone on to its end. -/
theorem lastSet_addr (env : Environment) (settings : Settings) :
    lastSet .addrHi (quiet ++ setUpEmac3 env.eepromData ++ registerCallbacks ++
        (initializeDriver env settings).2) = some (addrHi env.eepromData) ∧
      lastSet .addrLo (quiet ++ setUpEmac3 env.eepromData ++ registerCallbacks ++
        (initializeDriver env settings).2) = some (addrLo env.eepromData) := by
  have later (reg : Emac3Reg) (last : Option (BitVec 32)) :
      (initializeDriver env settings).2.foldl (setBy reg) last = last := by
    unfold initializeDriver
    repeat' split
    all_goals rfl
  constructor
  · rw [lastSet, List.foldl_append, later]
    rfl
  · rw [lastSet, List.foldl_append, later]
    rfl

/-- For every content of the EEPROM that is not all zero the two drivers take the
address or refuse it together, and where they take it they agree on it.

Proof: both drivers are computed from the content of the EEPROM, and both compare the same
sum. Where it is right, the two registers hold the address packed in the same way. -/
theorem mac_address_agrees {spdCapsSmap : BitVec 16} {env : Environment} (settings : Settings)
    {readFromEEPROM : BitVec 8 → Nat → List (BitVec 16)} (reaches : Reaches spdCapsSmap env)
    (delivers : Delivers readFromEEPROM env.eepromData)
    (notZero : ¬ (env.eepromData.w0 = 0 ∧ env.eepromData.w1 = 0 ∧ env.eepromData.w2 = 0)) :
    ((lastSet .addrHi (bringUp spdCapsSmap env settings).2).isSome = true ↔
        (getNodeAddr readFromEEPROM).1 = true) ∧
      ((getNodeAddr readFromEEPROM).1 = true → SameAddress env.eepromData
        (bringUp spdCapsSmap env settings).2 (getNodeAddr readFromEEPROM).2) := by
  rw [reaches.bringUp, if_neg notZero, getNodeAddr_delivered delivers]
  by_cases wrong : checksum16 env.eepromData ≠ env.eepromData.w3
  · rw [if_pos wrong, if_pos wrong]
    constructor
    · exact iff_of_false (by decide) (by decide)
    · intro taken
      cases taken
  · rw [if_neg wrong, if_neg wrong]
    obtain ⟨hi, lo⟩ := lastSet_addr env settings
    obtain ⟨packedHi, packedLo⟩ := addr_packed env.eepromData
    constructor
    · rw [hi]
      exact iff_of_true rfl rfl
    · intro _
      constructor
      · rw [hi, packedHi]
      · rw [lo, packedLo]
      · intro setHi setLo isHi isLo
        rw [hi, packedHi] at isHi
        rw [lo, packedLo] at isLo
        rw [← Option.some.inj isHi, ← Option.some.inj isLo]
        exact smapGetMACAddress_packed env.eepromData
      · rfl

/-- An adapter with the address 11:22:33:44:55:66 and its checksum. -/
def addressed : Environment := { adapter 1 with eepromData := ⟨0x2211, 0x4433, 0x6655, 0xcc99⟩ }

/-- With this EEPROM both drivers take the address and report the same six bytes. -/
theorem mac_address_agrees_addressed :
    SameAddress addressed.eepromData (bringUp 1 addressed loadedSettings).2
        (addressOf addressed.eepromData) ∧
      addressOf addressed.eepromData = [0x11, 0x22, 0x33, 0x44, 0x55, 0x66] := by
  have reaches : Reaches 1 addressed := by
    constructor
    all_goals decide
  have agrees := mac_address_agrees loadedSettings reaches
    (fun _ _ _ => rfl : Delivers (fun address count =>
      ([0x2211, 0x4433, 0x6655, 0xcc99].drop address.toNat).take count) addressed.eepromData)
    (by decide)
  exact ⟨agrees.2 rfl, rfl⟩

end Ps2Eth
