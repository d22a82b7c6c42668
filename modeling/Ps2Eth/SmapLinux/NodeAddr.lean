import Ps2Eth.Lib.SerialMemory
import Ps2Eth.MacAddress
import Ps2Eth.SmapLinux.Eeprom

/-!
# The EEPROM behind the port in the smap-linux driver

With the chip on the PIO port `ReadFromEEPROM` of `smap-linux/smap.c` and the chip talk
to each other: the driver clocks the start bit, the command and the address, and what it
then samples are the words of the chip. So `GetNodeAddr` takes the first three words of
the chip for the MAC address exactly when they add up to the fourth.
-/

namespace Ps2Eth.SmapLinux

open SerialBus (Chip Observer Pulse answers Answered)

/-- The EEPROM: six bits of address, and words of sixteen. -/
abbrev Eeprom := Chip 6 16

/-- The words from an address on, the first again behind the last. -/
def wordsFrom (eeprom : Eeprom) (address : BitVec 6) (count : Nat) : List (BitVec 16) :=
  (List.range count).map fun number => eeprom.word (address + BitVec.ofNat 6 number)

/-- All the levels that were sampled on the port are what the chip answered, which had
taken some bits before. -/
def AnsweredBy (eeprom : Eeprom) (port : BitVec 8) (bits : List Bool) (pio : Pio) : Prop :=
  answers eeprom ⟨linesOf port, bits⟩ (pio.accesses.map PioAccess.event) = true

/-- Whether the chip answered so is decided by following its accesses. -/
instance (eeprom : Eeprom) (port : BitVec 8) (bits : List Bool) (pio : Pio) :
    Decidable (AnsweredBy eeprom port bits pio) := inferInstanceAs (Decidable (_ = true))

/-- The address bits that go out. -/
def addressBits (u8Addr : BitVec 8) : List Bool :=
  (List.range 6).map fun bit => u8Addr.getLsbD (5 - bit)

/-- The address bits that are clocked out are the low six bits of the address. -/
theorem addressBits_value (u8Addr : BitVec 8) :
    SerialBus.addressValue 6 (addressBits u8Addr) = u8Addr.setWidth 6 := by
  apply BitVec.eq_of_getLsbD_eq
  intro bit inside
  have place : 5 - (5 - bit) = bit := by omega
  simp [SerialBus.addressValue, addressBits, inside, place]

/-- Before the words are returned the chip is released, and an observer has seen the
pulses of the read. -/
theorem readFromEEPROM_seen (port u8PPWC pioportDir : BitVec 8) (pioportIn : Nat → BitVec 8)
    (u8Addr : BitVec 8) (iN : Nat) :
    ((Pio.readFromEEPROM ⟨u8PPWC, pioportIn, 0, pioportDir, []⟩ u8Addr iN).2.seen port =
      (Observer.pulsedAll ⟨⟨true, false, false⟩, [], [false, true], true⟩
        (readPulses pioportIn u8Addr iN)).released) ∧
      (Pio.readFromEEPROM ⟨u8PPWC, pioportIn, 0, pioportDir, []⟩ u8Addr iN).1 =
        (List.range iN).map fun word => shiftIn 0 (levels pioportIn (16 * word) 16) := by
  have addressed := (startOp_shows port u8PPWC pioportDir pioportIn ppOpRead).putAddrLoop 6 le_rfl
    (u8Addr &&& 0x3f)
  obtain ⟨shown, words⟩ := addressed.readLoop iN
  rw [← Observer.pulsedAll_append, ← Observer.pulsedAll_append, readPulses_eq] at shown
  refine ⟨shown.csLow, words.trans ?_⟩
  simp only [Nat.zero_add]

/-- The samples of a read are the levels of the answer line, one for each clock. -/
theorem readPulses_levels (pioportIn : Nat → BitVec 8) (u8Addr : BitVec 8) (iN : Nat) :
    readPulses pioportIn u8Addr iN =
      (outPulse true :: outPulse true :: outPulse false :: (addressBits u8Addr).map outPulse) ++
        (levels pioportIn 0 (16 * iN)).map fun level => ⟨false, [level]⟩ := by
  simp only [readPulses, addressBits, levels, List.map_map, List.range_eq_range']
  rfl

/-- Where the driver stands before a read: what is on the port and in `u8PPWC`, its
direction, what the reads of the port will return, and what the chip had taken. -/
structure BeforeRead where
  port : BitVec 8
  u8PPWC : BitVec 8
  pioportDir : BitVec 8
  pioportIn : Nat → BitVec 8
  bits : List Bool

/-- `ReadFromEEPROM` from what the driver and the port were left at. -/
def BeforeRead.read (before : BeforeRead) (u8Addr : BitVec 8) (iN : Nat) :
    List (BitVec 16) × Pio :=
  Pio.readFromEEPROM ⟨before.u8PPWC, before.pioportIn, 0, before.pioportDir, []⟩ u8Addr iN

section Chip

variable {eeprom : Eeprom} {port u8PPWC pioportDir : BitVec 8} {pioportIn : Nat → BitVec 8}
  {bits : List Bool} {u8Addr : BitVec 8} {iN : Nat}

/-- The pulses of a read are answered. -/
theorem readPulses_answered
    (answered : AnsweredBy eeprom port bits
      (Pio.readFromEEPROM ⟨u8PPWC, pioportIn, 0, pioportDir, []⟩ u8Addr iN).2) :
    Answered eeprom [] (readPulses pioportIn u8Addr iN) := by
  have agrees := SerialBus.agrees_watch bits answered
  have seen := (readFromEEPROM_seen port u8PPWC pioportDir pioportIn u8Addr iN).1
  rw [Pio.seen] at seen
  rw [seen] at agrees
  have once : (Observer.released (Observer.pulsedAll ⟨⟨true, false, false⟩, [], [false, true], true⟩
      (readPulses pioportIn u8Addr iN))).selects = false ::
        (List.replicate (3 * (readPulses pioportIn u8Addr iN).length + 1) true ++ [false]) := by
    simp only [Observer.released, Observer.pulsedAll_selects, List.replicate_succ, List.cons_append,
      List.nil_append]
  have behind := agrees.behind _ once
  simpa only [Observer.released, Observer.pulsedAll_pulses, List.nil_append] using behind

/-- The levels read are the bits of the words of the chip. -/
theorem level_bit
    (answered : AnsweredBy eeprom port bits
      (Pio.readFromEEPROM ⟨u8PPWC, pioportIn, 0, pioportDir, []⟩ u8Addr iN).2)
    {read : Nat} (inside : read < 16 * iN) :
    dataOut (pioportIn read) = eeprom.bit (u8Addr.setWidth 6) read := by
  have pulses := readPulses_answered answered
  rw [readPulses_levels] at pulses
  have command : (outPulse true :: outPulse true :: outPulse false ::
      (addressBits u8Addr).map outPulse).map Pulse.data =
        true :: (SerialBus.readCommand ++ addressBits u8Addr) := by
    simp only [List.map_cons, List.map_map]
    exact congrArg (fun bits => true :: true :: false :: bits) (List.map_id _)
  have length : (levels pioportIn 0 (16 * iN)).length = 16 * iN := by simp [levels]
  have all := SerialBus.read_levels (by simp [addressBits]) command pulses
  rw [addressBits_value, length] at all
  have here := congrArg (fun levels => levels.getD read false) all
  simpa [levels, inside] using here

/-- `ReadFromEEPROM` returns the words of the chip, whatever the port was left at and
whatever the chip had taken before. -/
theorem readFromEEPROM_words
    (answered : AnsweredBy eeprom port bits
      (Pio.readFromEEPROM ⟨u8PPWC, pioportIn, 0, pioportDir, []⟩ u8Addr iN).2) :
    (Pio.readFromEEPROM ⟨u8PPWC, pioportIn, 0, pioportDir, []⟩ u8Addr iN).1 =
      wordsFrom eeprom (u8Addr.setWidth 6) iN := by
  rw [(readFromEEPROM_seen port u8PPWC pioportDir pioportIn u8Addr iN).2, wordsFrom]
  apply List.map_congr_left
  intro word member
  have early : word < iN := List.mem_range.mp member
  apply BitVec.eq_of_getLsbD_eq
  intro place inside
  have bit : 15 - (15 - place) = place := by omega
  have level : dataOut (pioportIn (16 * word + (15 - place))) =
      eeprom.bit (u8Addr.setWidth 6) (16 * word + (15 - place)) := level_bit answered (by omega)
  have number : (16 * word + (15 - place)) / 16 = word := by omega
  have position : (16 * word + (15 - place)) % 16 = 15 - place := by omega
  have shifted : (shiftIn 0 (levels pioportIn (16 * word) 16)).getLsbD (15 - (15 - place)) =
      dataOut (pioportIn (16 * word + (15 - place))) := shiftIn_levels _ _ (by omega)
  rw [bit] at shifted
  rw [shifted, level, Chip.bit, number, position, BitVec.getMsbD]
  simp [bit]
  omega

end Chip

/-- The words of the chip that `GetNodeAddr` reads. -/
def nodeData (eeprom : Eeprom) : Smap.SmapInit.EepromData :=
  ⟨eeprom.word 0, eeprom.word 1, eeprom.word 2, eeprom.word 3⟩

/-- The two reads of `GetNodeAddr`, each from where the driver then stands. -/
def nodeReads (first second : BeforeRead) (u8Addr : BitVec 8) (iN : Nat) : List (BitVec 16) :=
  ((if u8Addr = 0 then first else second).read u8Addr iN).1

/-- `GetNodeAddr` depends on its two reads only. -/
theorem getNodeAddr_congr {readFromEEPROM other : BitVec 8 → Nat → List (BitVec 16)}
    (address : readFromEEPROM 0 3 = other 0 3) (checksum : readFromEEPROM 3 1 = other 3 1) :
    getNodeAddr readFromEEPROM = getNodeAddr other := by
  rw [getNodeAddr, getNodeAddr, address, checksum]

/-- The two reads of `GetNodeAddr` get the first four words of the chip. -/
theorem nodeReads_words {eeprom : Eeprom} {first second : BeforeRead}
    (address : AnsweredBy eeprom first.port first.bits (first.read 0 3).2)
    (checksum : AnsweredBy eeprom second.port second.bits (second.read 3 1).2) :
    nodeReads first second 0 3 = [eeprom.word 0, eeprom.word 1, eeprom.word 2] ∧
      nodeReads first second 3 1 = [eeprom.word 3] :=
  ⟨readFromEEPROM_words address, readFromEEPROM_words checksum⟩

/-- What `GetNodeAddr` makes of the first four words of the chip. -/
theorem getNodeAddr_words {eeprom : Eeprom} {first second : BeforeRead}
    (address : AnsweredBy eeprom first.port first.bits (first.read 0 3).2)
    (checksum : AnsweredBy eeprom second.port second.bits (second.read 3 1).2) :
    getNodeAddr (nodeReads first second) =
      if Smap.SmapInit.checksum16 (nodeData eeprom) ≠ eeprom.word 3 then
        (false, List.replicate 6 0)
      else (true, addressOf (nodeData eeprom)) := by
  obtain ⟨words, sum⟩ := nodeReads_words address checksum
  have delivers : Delivers (fun u8Addr iN =>
      ([eeprom.word 0, eeprom.word 1, eeprom.word 2, eeprom.word 3].drop u8Addr.toNat).take iN)
      (nodeData eeprom) := fun _ _ _ => rfl
  exact (getNodeAddr_congr words sum).trans (getNodeAddr_delivered delivers)

/-- With any chip on the port, whatever the driver and the chip were left at: a read of
any length returns the words of the chip from its address on, and `GetNodeAddr` takes
the bytes of the first three words for the address exactly when they add up to the
fourth.

Proof: the protocol of the driver is the one that the chip expects, so the bits sampled
are those of its words; the sum that `GetNodeAddr` compares is then that of these
words. -/
theorem eeprom_delivers (eeprom : Eeprom) :
    (∀ (before : BeforeRead) (u8Addr : BitVec 8) (iN : Nat),
      AnsweredBy eeprom before.port before.bits (before.read u8Addr iN).2 →
        (before.read u8Addr iN).1 = wordsFrom eeprom (u8Addr.setWidth 6) iN) ∧
      ∀ first second : BeforeRead,
        AnsweredBy eeprom first.port first.bits (first.read 0 3).2 →
        AnsweredBy eeprom second.port second.bits (second.read 3 1).2 →
          getNodeAddr (nodeReads first second) =
            if Smap.SmapInit.checksum16 (nodeData eeprom) ≠ eeprom.word 3 then
              (false, List.replicate 6 0)
            else (true, addressOf (nodeData eeprom)) := by
  constructor
  · intro before u8Addr iN answered
    exact readFromEEPROM_words answered
  · intro first second address checksum
    exact getNodeAddr_words address checksum

/-- A chip with some words, the others zero. -/
def chipOf (words : List (BitVec 16)) : Eeprom := ⟨fun address => words.getD address.toNat 0⟩

/-- A port with all its lines high, where the chip will answer a read. -/
def answering (eeprom : Eeprom) (u8Addr : BitVec 8) : BeforeRead where
  port := 0xff
  u8PPWC := 0xff
  pioportDir := 0
  pioportIn read := if eeprom.bit (u8Addr.setWidth 6) read then 0x10 else 0
  bits := [true, true]

/-- A chip with the address 11:22:33:44:55:66. -/
def addressedChip : Eeprom := chipOf [0x2211, 0x4433, 0x6655, 0xcc99]

/-- Its address is taken, and a read from the last word goes on with the first. -/
theorem eeprom_delivers_addressed :
    ((answering addressedChip 63).read 63 2).1 = [0, 0x2211] ∧
      getNodeAddr (nodeReads (answering addressedChip 0) (answering addressedChip 3)) =
        (true, [0x11, 0x22, 0x33, 0x44, 0x55, 0x66]) := by
  obtain ⟨words, taken⟩ := eeprom_delivers addressedChip
  constructor
  · have around : AnsweredBy addressedChip 0xff [true, true]
        ((answering addressedChip 63).read 63 2).2 := by
      decide +kernel
    refine (words (answering addressedChip 63) 63 2 around).trans ?_
    decide +kernel
  · have address : AnsweredBy addressedChip 0xff [true, true]
        ((answering addressedChip 0).read 0 3).2 := by
      decide +kernel
    have checksum : AnsweredBy addressedChip 0xff [true, true]
        ((answering addressedChip 3).read 3 1).2 := by
      decide +kernel
    refine (taken (answering addressedChip 0) (answering addressedChip 3) address checksum).trans ?_
    decide +kernel

end Ps2Eth.SmapLinux
