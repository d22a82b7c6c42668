import Mathlib.Data.BitVec
import Mathlib.Data.List.GetD
import Ps2Eth.Lib.SerialBus

/-!
# Reading the EEPROM in the smap-linux driver

`ReadFromEEPROM` of `smap-linux/smap.c` drives a serial EEPROM through the PIO port:
a start bit, the operation, six bits of address, and a clock for each bit that is
read. The macros work on `u8PPWC`, a copy of what the port last got; only
`SMAP_PP_CLK_OUT` writes the port.

What stands in `u8PPWC` and on the port before does not matter. Delays are left out.
-/

namespace Ps2Eth.SmapLinux

open SerialBus (Event Lines Observer Pulse)

/-- `PP_DIN`, the data line to the EEPROM. -/
def ppDin : BitVec 8 := 1#8 <<< 5
/-- `PP_SCLK`, the clock of the EEPROM, at whose rising edge it takes a bit. -/
def ppSclk : BitVec 8 := 1#8 <<< 6
/-- `PP_CSEL`, the chip select of the EEPROM. -/
def ppCsel : BitVec 8 := 1#8 <<< 7

/-- `PP_OP_READ`, the two bits of the operation. -/
def ppOpRead : Nat := 2

/-- An access to the data registers of the PIO port. -/
inductive PioAccess where
  | out (value : BitVec 8)
  | input (value : BitVec 8)

/-- The PIO port: `u8PPWC`, what each read of `SMAP_PIOPORT_IN` returns and how many
were made, and the accesses so far. -/
structure Pio where
  u8PPWC : BitVec 8
  pioportIn : Nat → BitVec 8
  reads : Nat
  pioportDir : BitVec 8
  accesses : List PioAccess

namespace Pio

/-- `SMAP_PP_SET_D` sets the data line in `u8PPWC`, without an access to the port. -/
def setD (pio : Pio) (d : Bool) : Pio :=
  { pio with u8PPWC := if d then pio.u8PPWC ||| ppDin else pio.u8PPWC &&& ~~~ppDin }

/-- `SMAP_PP_SET_S` sets the chip select in `u8PPWC`, without an access to the port. -/
def setS (pio : Pio) (s : Bool) : Pio :=
  { pio with u8PPWC := if s then pio.u8PPWC ||| ppCsel else pio.u8PPWC &&& ~~~ppCsel }

/-- `SMAP_PP_CLK_OUT` writes `u8PPWC` to the port, with the clock at this level. The other
two lines go out with it. -/
def clkOut (pio : Pio) (c : Bool) : Pio :=
  let value := if c then pio.u8PPWC ||| ppSclk else pio.u8PPWC &&& ~~~ppSclk
  { pio with u8PPWC := value, accesses := pio.accesses ++ [.out value] }

/-- `SMAP_PP_GET_Q` reads the port, and takes the bit of the data-out line. -/
def getQ (pio : Pio) : BitVec 16 × Pio :=
  let value := pio.pioportIn pio.reads
  ((value >>> 4 &&& 1).setWidth 16,
    { pio with reads := pio.reads + 1, accesses := pio.accesses ++ [.input value] })

/-- `EEPROMClockDataOut`: one pulse of the clock with a bit on the data line. -/
def eepromClockDataOut (pio : Pio) (val : Bool) : Pio :=
  (((pio.setD val).clkOut false).clkOut true).clkOut false

/-- `EEPROMClockDataIn`: one pulse of the clock with the data line low, and a sample while
the clock is high. -/
def eepromClockDataIn (pio : Pio) : BitVec 16 × Pio :=
  let iRet := (((pio.setD false).clkOut false).clkOut true).getQ
  (iRet.1, iRet.2.clkOut false)

/-- What is left of the loop of `EEPROMPutAddr`. -/
def putAddrLoop : Nat → BitVec 8 → Pio → Pio
  | 0, _, pio => pio
  | left + 1, u8Addr, pio =>
      putAddrLoop left (u8Addr <<< 1) (pio.eepromClockDataOut (u8Addr &&& 0x20 != 0))

/-- `EEPROMPutAddr` sends the six bits of the address, the first one uppermost. -/
def eepromPutAddr (pio : Pio) (u8Addr : BitVec 8) : Pio := putAddrLoop 6 (u8Addr &&& 0x3f) pio

/-- What is left of the loop of `GetDataFromEEPROM`. -/
def getDataLoop : Nat → BitVec 16 → Pio → BitVec 16 × Pio
  | 0, u16Data, pio => (u16Data, pio)
  | left + 1, u16Data, pio =>
      let iRet := pio.eepromClockDataIn
      getDataLoop left (u16Data <<< 1 ||| iRet.1) iRet.2

/-- `GetDataFromEEPROM` clocks sixteen bits in, the first one uppermost. -/
def getDataFromEEPROM (pio : Pio) : BitVec 16 × Pio := getDataLoop 16 0 pio

/-- `EEPROMStartOp`: the chip select goes low and high again, and then the start bit and
the operation are sent. -/
def eepromStartOp (pio : Pio) (iOp : Nat) : Pio :=
  let pio := { pio with pioportDir := ppSclk ||| ppCsel ||| ppDin }
  let pio := ((pio.setS false).setD false).clkOut false
  let pio := ((pio.setS true).setD false).clkOut false
  let pio := pio.eepromClockDataOut true
  let pio := pio.eepromClockDataOut (iOp >>> 1 &&& 1 != 0)
  pio.eepromClockDataOut (iOp &&& 1 != 0)

/-- `EEPROMCSLow` takes the chip select away, and the chip with it. -/
def eepromCSLow (pio : Pio) : Pio := ((pio.setS false).setD false).clkOut false

/-- What is left of the loop of `ReadEEPROMExec`. -/
def readLoop : Nat → Pio → List (BitVec 16) × Pio
  | 0, pio => ([], pio)
  | left + 1, pio =>
      let word := pio.getDataFromEEPROM
      let rest := readLoop left word.2
      (word.1 :: rest.1, rest.2)

/-- `ReadEEPROMExec`: one selection of the chip, with the operation, the address and as
many words as asked for. -/
def readEEPROMExec (pio : Pio) (u8Addr : BitVec 8) (iN : Nat) : List (BitVec 16) × Pio :=
  let words := readLoop iN ((pio.eepromStartOp ppOpRead).eepromPutAddr u8Addr)
  (words.1, words.2.eepromCSLow)

/-- `ReadFromEEPROM`: the read is made with interrupts suspended, so that nothing comes
between its accesses. -/
def readFromEEPROM (pio : Pio) (u8Addr : BitVec 8) (iN : Nat) : List (BitVec 16) × Pio :=
  pio.readEEPROMExec u8Addr iN

end Pio

/-- The lines that a value on the port drives. -/
def linesOf (value : BitVec 8) : Lines where
  select := value.getLsbD 7
  clock := value.getLsbD 6
  data := value.getLsbD 5

/-- The data-out line in a value read from the port. -/
def dataOut (value : BitVec 8) : Bool := value.getLsbD 4

/-- An access as the EEPROM sees it. -/
def PioAccess.event : PioAccess → Event
  | .out value => .drive (linesOf value)
  | .input value => .sample (dataOut value)

/-- What an observer of the port sees that was left at a value before. -/
def Pio.seen (port : BitVec 8) (pio : Pio) : Observer :=
  (Observer.start (linesOf port)).watch (pio.accesses.map PioAccess.event)

namespace Pio

/-- The lines that the port drives when `u8PPWC` is next written to it. -/
def lines (pio : Pio) : Lines := linesOf pio.u8PPWC

section Lines

variable (pio : Pio) (level : Bool)

/-- `EEPROM_SetD` drives the data line and leaves the other two. -/
@[simp] theorem setD_lines : (pio.setD level).lines = ⟨pio.lines.select, pio.lines.clock, level⟩ := by
  cases level <;> simp [lines, setD, linesOf, ppDin]

/-- `EEPROM_SetS` drives the chip select and leaves the other two. -/
@[simp] theorem setS_lines : (pio.setS level).lines = ⟨level, pio.lines.clock, pio.lines.data⟩ := by
  cases level <;> simp [lines, setS, linesOf, ppCsel]

/-- `EEPROM_ClkOut` drives the clock and leaves the other two. -/
@[simp] theorem clkOut_lines :
    (pio.clkOut level).lines = ⟨pio.lines.select, level, pio.lines.data⟩ := by
  cases level <;> simp [lines, clkOut, linesOf, ppSclk]

/-- Sampling the data-out line drives none. -/
@[simp] theorem getQ_lines : pio.getQ.2.lines = pio.lines := rfl

variable (port : BitVec 8)

/-- The level of the data line goes out with the next write of the port: until then the
chip sees nothing of it. -/
@[simp] theorem setD_seen : (pio.setD level).seen port = pio.seen port := rfl

/-- So does that of the chip select. -/
@[simp] theorem setS_seen : (pio.setS level).seen port = pio.seen port := rfl

/-- A write of the port drives the lines. -/
@[simp] theorem clkOut_seen : (pio.clkOut level).seen port =
    (pio.seen port).observe (.drive ⟨pio.lines.select, level, pio.lines.data⟩) := by
  rw [← clkOut_lines]
  simp [seen, clkOut, Observer.watch, PioAccess.event, lines]

/-- A read of the port samples the data-out line. -/
@[simp] theorem getQ_seen : pio.getQ.2.seen port =
    (pio.seen port).observe (.sample (dataOut (pio.pioportIn pio.reads))) := by
  simp [seen, getQ, Observer.watch, PioAccess.event]

/-- `SMAP_PP_GET_Q` gives the level of the data-out line. -/
theorem getQ_level :
    pio.getQ.1 = if dataOut (pio.pioportIn pio.reads) then 1#16 else 0#16 := by
  rw [getQ]
  generalize pio.pioportIn pio.reads = value
  ext position inside
  cases position with
  | zero => cases level : dataOut value <;> simp_all [dataOut]
  | succ position => cases dataOut value <;> simp

end Lines

end Pio

/-- The levels that are sampled, from a read on. -/
def levels (pioportIn : Nat → BitVec 8) (first count : Nat) : List Bool :=
  (List.range' first count).map fun read => dataOut (pioportIn read)

/-- Bits shifted into a word, the first of them the highest in the end. -/
def shiftIn (word : BitVec 16) (bits : List Bool) : BitVec 16 :=
  bits.foldl (fun word bit => word <<< 1 ||| if bit then 1 else 0) word

/-- The bits of a word that one was shifted into. -/
theorem shifted_bit (word : BitVec 16) (bit : Bool) {position : Nat} (inside : position < 16) :
    (word <<< 1 ||| if bit then 1#16 else 0#16).getLsbD position =
      if position = 0 then bit else word.getLsbD (position - 1) := by
  cases position with
  | zero => cases bit <;> simp
  | succ position =>
    have low : position < 16 := by omega
    cases bit <;> simp [inside, BitVec.getLsbD_eq_getElem low]

/-- The bits of a word that others were shifted into. -/
theorem shiftIn_bit (word : BitVec 16) (bits : List Bool) {position : Nat} (inside : position < 16) :
    (shiftIn word bits).getLsbD position =
      if position < bits.length then bits.getD (bits.length - 1 - position) false
      else word.getLsbD (position - bits.length) := by
  induction bits using List.reverseRecOn generalizing position with
  | nil => simp [shiftIn]
  | append_singleton bits bit inductionHypothesis =>
    have last : (shiftIn word (bits ++ [bit])).getLsbD position =
        if position = 0 then bit else (shiftIn word bits).getLsbD (position - 1) := by
      rw [← shifted_bit _ _ inside]
      simp [shiftIn]
    rw [last, List.length_append, List.length_singleton, Nat.add_sub_cancel]
    by_cases lowest : position = 0
    · rw [if_pos lowest, if_pos (by omega), lowest, Nat.sub_zero, List.getD_append_right _ _ _ _ le_rfl,
        Nat.sub_self, List.getD_cons_zero]
    · rw [if_neg lowest, inductionHypothesis (by omega)]
      by_cases within : position - 1 < bits.length
      · rw [if_pos within, if_pos (by omega), List.getD_append _ _ _ _ (by omega)]
        congr 1
        omega
      · rw [if_neg within, if_neg (by omega)]
        congr 1
        omega

/-- What an observer has seen of the port, where the copy in `u8PPWC` is in step with
the lines and the EEPROM is selected. -/
structure Shows (port : BitVec 8) (pioportIn : Nat → BitVec 8) (pio : Pio) (observer : Observer)
    (reads : Nat) : Prop where
  seen : pio.seen port = observer
  selected : pio.lines.select = true
  input : pio.pioportIn = pioportIn
  reads : pio.reads = reads

/-- A pulse in which nothing is read. -/
def outPulse (data : Bool) : Pulse := ⟨data, []⟩

/-- A pulse in which a level is read. -/
def inPulse (level : Bool) : Pulse := ⟨false, [level]⟩

section Shows

variable {port : BitVec 8} {pioportIn : Nat → BitVec 8} {pio : Pio} {observer : Observer} {reads : Nat}

/-- A clock with data out is a pulse with the data. -/
theorem Shows.clockDataOut (shown : Shows port pioportIn pio observer reads) (val : Bool) :
    Shows port pioportIn (pio.eepromClockDataOut val) (observer.pulsed (outPulse val)) reads := by
  obtain ⟨rfl, selected, input, read⟩ := shown
  constructor
  · simp only [Pio.eepromClockDataOut, Pio.clkOut_seen, Pio.setD_seen, Pio.clkOut_lines,
      Pio.setD_lines, selected]
    exact Observer.watch_pulse (pio.seen port) val
  · simp only [Pio.eepromClockDataOut, Pio.clkOut_lines, Pio.setD_lines, selected]
  · exact input
  · exact read

/-- A clock with data in is a pulse around a sample. -/
theorem Shows.clockDataIn (shown : Shows port pioportIn pio observer reads) :
    Shows port pioportIn pio.eepromClockDataIn.2
        (observer.pulsed (inPulse (dataOut (pioportIn reads)))) (reads + 1) ∧
      pio.eepromClockDataIn.1 = if dataOut (pioportIn reads) then 1#16 else 0#16 := by
  obtain ⟨rfl, selected, rfl, rfl⟩ := shown
  refine ⟨⟨?_, ?_, rfl, rfl⟩, Pio.getQ_level _⟩
  · simp only [Pio.eepromClockDataIn, Pio.clkOut_seen, Pio.getQ_seen, Pio.getQ_lines, Pio.setD_seen,
      Pio.clkOut_lines, Pio.setD_lines, selected]
    exact Observer.watch_sampled (pio.seen port) false _
  · simp only [Pio.eepromClockDataIn, Pio.clkOut_lines, Pio.getQ_lines, Pio.setD_lines, selected]

/-- The mask of the loop of `EEPROMPutAddr`. -/
theorem mask_bit5 (u8Addr : BitVec 8) : (u8Addr &&& 0x20 != 0) = u8Addr.getLsbD 5 := by
  have mask : (0x20 : BitVec 8) = BitVec.twoPow 8 5 := by decide
  rw [mask, BitVec.and_twoPow]
  cases u8Addr.getLsbD 5 with
  | false => rfl
  | true => rfl

/-- The bits of the address go out from the sixth on. -/
theorem Shows.putAddrLoop (left : Nat) (few : left ≤ 6) (u8Addr : BitVec 8)
    (shown : Shows port pioportIn pio observer reads) :
    Shows port pioportIn (pio.putAddrLoop left u8Addr)
      (observer.pulsedAll ((List.range left).map fun bit => outPulse (u8Addr.getLsbD (5 - bit))))
      reads := by
  induction left generalizing pio observer u8Addr with
  | zero => exact shown
  | succ left inductionHypothesis =>
    have later := inductionHypothesis (by omega) (u8Addr <<< 1)
      (shown.clockDataOut (u8Addr &&& 0x20 != 0))
    have moved : (List.range left).map (fun bit => outPulse ((u8Addr <<< 1).getLsbD (5 - bit))) =
        (List.range left).map fun bit => outPulse (u8Addr.getLsbD (5 - (bit + 1))) := by
      apply List.map_congr_left
      intro bit member
      have early : bit < left := List.mem_range.mp member
      have inside : 5 - bit < 8 := by omega
      have shifted : ¬ 5 - bit < 1 := by omega
      rw [BitVec.getLsbD_shiftLeft, decide_eq_true inside, decide_eq_false shifted]
      rfl
    rw [List.range_succ_eq_map, List.map_cons, List.map_map, Observer.pulsedAll_cons, Nat.sub_zero,
      ← mask_bit5]
    rw [moved] at later
    exact later

/-- Bits are read one after the other, and shifted in. -/
theorem Shows.getDataLoop (left : Nat) (u16Data : BitVec 16)
    (shown : Shows port pioportIn pio observer reads) :
    Shows port pioportIn (pio.getDataLoop left u16Data).2
        (observer.pulsedAll ((levels pioportIn reads left).map inPulse)) (reads + left) ∧
      (pio.getDataLoop left u16Data).1 = shiftIn u16Data (levels pioportIn reads left) := by
  induction left generalizing pio observer reads u16Data with
  | zero => exact ⟨shown, rfl⟩
  | succ left inductionHypothesis =>
    obtain ⟨next, bit⟩ := shown.clockDataIn
    obtain ⟨later, word⟩ := inductionHypothesis (u16Data <<< 1 ||| pio.eepromClockDataIn.1) next
    have all : levels pioportIn reads (left + 1) =
        dataOut (pioportIn reads) :: levels pioportIn (reads + 1) left := by
      rw [levels, List.range'_succ, List.map_cons]
      rfl
    have counted : reads + (left + 1) = reads + 1 + left := by omega
    rw [all, List.map_cons, Observer.pulsedAll_cons, counted]
    exact ⟨later, word.trans (by rw [bit]; rfl)⟩

/-- Words are read one after the other. -/
theorem Shows.readLoop (left : Nat) (shown : Shows port pioportIn pio observer reads) :
    Shows port pioportIn (pio.readLoop left).2
        (observer.pulsedAll ((levels pioportIn reads (16 * left)).map inPulse))
        (reads + 16 * left) ∧
      (pio.readLoop left).1 =
        (List.range left).map fun word => shiftIn 0 (levels pioportIn (reads + 16 * word) 16) := by
  induction left generalizing pio observer reads with
  | zero => exact ⟨shown, rfl⟩
  | succ left inductionHypothesis =>
    obtain ⟨next, word⟩ := shown.getDataLoop 16 0
    obtain ⟨later, words⟩ := inductionHypothesis next
    have all : levels pioportIn reads (16 * (left + 1)) =
        levels pioportIn reads 16 ++ levels pioportIn (reads + 16) (16 * left) := by
      rw [levels, levels, levels, ← List.map_append, List.range'_append_1, Nat.mul_succ, Nat.add_comm]
    rw [all, List.map_append, Observer.pulsedAll_append, Nat.mul_succ, Nat.add_comm (16 * left),
      ← Nat.add_assoc]
    refine ⟨later, ?_⟩
    rw [List.range_succ_eq_map, List.map_cons, List.map_map]
    refine congrArg₂ List.cons word (words.trans ?_)
    apply List.map_congr_left
    intro later _
    simp only [Function.comp_apply, Nat.succ_eq_add_one, Nat.mul_succ, Nat.add_assoc,
      Nat.add_comm 16]

/-- `EEPROMCSLow` releases the EEPROM: all lines go low, and the observer sees the end of
the read. -/
theorem Shows.csLow (shown : Shows port pioportIn pio observer reads) :
    pio.eepromCSLow.seen port = observer.released := by
  obtain ⟨rfl, -, -, -⟩ := shown
  rw [← Observer.observe_release]
  simp [Pio.eepromCSLow]

end Shows

/-- Before the start bit the EEPROM is selected, whatever the port was left at. -/
theorem startOp_shows (port u8PPWC pioportDir : BitVec 8) (pioportIn : Nat → BitVec 8) (iOp : Nat) :
    Shows port pioportIn (Pio.eepromStartOp ⟨u8PPWC, pioportIn, 0, pioportDir, []⟩ iOp)
      (Observer.pulsedAll ⟨⟨true, false, false⟩, [], [false, true], true⟩
        [outPulse true, outPulse (iOp >>> 1 &&& 1 != 0), outPulse (iOp &&& 1 != 0)]) 0 := by
  have selected : Shows port pioportIn ((((((Pio.mk u8PPWC pioportIn 0
      (ppSclk ||| ppCsel ||| ppDin) []).setS false).setD false).clkOut false).setS true).setD
      false |>.clkOut false) ⟨⟨true, false, false⟩, [], [false, true], true⟩ 0 := by
    constructor
    · have nothing : (Pio.mk u8PPWC pioportIn 0 (ppSclk ||| ppCsel ||| ppDin) []).seen port =
          Observer.start (linesOf port) := rfl
      simp [nothing, Observer.observe, Observer.start]
    · simp
    · rfl
    · rfl
  exact ((selected.clockDataOut true).clockDataOut _).clockDataOut _

/-- The pulses of a read: the start bit, the operation, the address, and a zero for each
level that is read. -/
def readPulses (pioportIn : Nat → BitVec 8) (u8Addr : BitVec 8) (iN : Nat) : List Pulse :=
  [outPulse true, outPulse true, outPulse false] ++
    ((List.range 6).map (fun bit => outPulse (u8Addr.getLsbD (5 - bit))) ++
      (List.range (16 * iN)).map fun read => inPulse (dataOut (pioportIn read)))

/-- What reading the EEPROM does on the wires, and what is returned. -/
structure ReadProtocol (port : BitVec 8) (pioportIn : Nat → BitVec 8) (u8Addr : BitVec 8) (iN : Nat)
    (result : List (BitVec 16) × Pio) : Prop where
  pulses : (result.2.seen port).pulses = readPulses pioportIn u8Addr iN
  selects : ∃ count, (result.2.seen port).selects = false :: (List.replicate count true ++ [false])
  steady : (result.2.seen port).steady = true
  length : result.1.length = iN
  words : ∀ word < iN, ∀ bit < 16,
    (result.1.getD word 0).getLsbD (15 - bit) = dataOut (pioportIn (16 * word + bit))

/-- The word that is shifted in has its levels from the highest bit on. -/
theorem shiftIn_levels (pioportIn : Nat → BitVec 8) (first : Nat) {bit : Nat} (inside : bit < 16) :
    (shiftIn 0 (levels pioportIn first 16)).getLsbD (15 - bit) = dataOut (pioportIn (first + bit)) := by
  have count : (levels pioportIn first 16).length = 16 := by simp [levels]
  have place : 16 - 1 - (15 - bit) = bit := by omega
  rw [shiftIn_bit _ _ (by omega), count, if_pos (by omega), place, levels,
    List.getD_eq_getElem _ _ (by simpa using inside)]
  simp

/-- The pulses of `EEPROMStartOp`, `EEPROMPutAddr` and the loop over the words. -/
theorem readPulses_eq (pioportIn : Nat → BitVec 8) (u8Addr : BitVec 8) (iN : Nat) :
    [outPulse true, outPulse (ppOpRead >>> 1 &&& 1 != 0), outPulse (ppOpRead &&& 1 != 0)] ++
        ((List.range 6).map (fun bit => outPulse ((u8Addr &&& 0x3f).getLsbD (5 - bit))) ++
          (levels pioportIn 0 (16 * iN)).map inPulse) = readPulses pioportIn u8Addr iN := by
  have masked : (List.range 6).map (fun bit => outPulse ((u8Addr &&& 0x3f).getLsbD (5 - bit))) =
      (List.range 6).map fun bit => outPulse (u8Addr.getLsbD (5 - bit)) := by
    apply List.map_congr_left
    intro bit member
    have small : bit < 6 := List.mem_range.mp member
    have kept : ∀ bit < 6, (0x3f#8).getLsbD (5 - bit) = true := by decide
    rw [BitVec.getLsbD_and]
    exact congrArg outPulse ((congrArg (u8Addr.getLsbD (5 - bit) && ·) (kept bit small)).trans
      (Bool.and_true _))
  rw [masked, readPulses, levels, List.map_map, List.range_eq_range', List.range_eq_range']
  rfl

/-- Whatever `u8PPWC` and the port hold before, the EEPROM is selected once, clocked
with the start bit, the operation, the address and zeros, and answers the words.

Proof: what was seen on the port is carried through the driver's helpers, each of which
adds its own pulses: the start bit and the operation, the six bits of the address, and
sixteen for each word. The words are the levels sampled, most significant first. -/
theorem readFromEEPROM_protocol (port u8PPWC pioportDir : BitVec 8) (pioportIn : Nat → BitVec 8)
    (u8Addr : BitVec 8) (iN : Nat) :
    ReadProtocol port pioportIn u8Addr iN
      (Pio.readFromEEPROM ⟨u8PPWC, pioportIn, 0, pioportDir, []⟩ u8Addr iN) := by
  have started := startOp_shows port u8PPWC pioportDir pioportIn ppOpRead
  have addressed := started.putAddrLoop 6 le_rfl (u8Addr &&& 0x3f)
  obtain ⟨shown, words⟩ := addressed.readLoop iN
  rw [← Observer.pulsedAll_append, ← Observer.pulsedAll_append, readPulses_eq] at shown
  have seen := shown.csLow
  constructor
  · refine (congrArg Observer.pulses seen).trans ?_
    simp only [Observer.released, Observer.pulsedAll_pulses, List.nil_append]
  · refine ⟨3 * (readPulses pioportIn u8Addr iN).length + 1, (congrArg Observer.selects seen).trans ?_⟩
    simp only [Observer.released, Observer.pulsedAll_selects, List.replicate_succ, List.cons_append,
      List.nil_append]
  · refine (congrArg Observer.steady seen).trans ?_
    simp only [Observer.released, Observer.pulsedAll_steady]
  · exact (congrArg List.length words).trans (by simp)
  · intro word early bit inside
    have read : (Pio.readFromEEPROM ⟨u8PPWC, pioportIn, 0, pioportDir, []⟩ u8Addr iN).1 =
        (List.range iN).map fun word => shiftIn 0 (levels pioportIn (0 + 16 * word) 16) := words
    rw [read, List.getD_eq_getElem _ _ (by simpa using early), List.getElem_map, List.getElem_range,
      shiftIn_levels _ _ inside, Nat.zero_add]

end Ps2Eth.SmapLinux
