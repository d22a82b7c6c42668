import Ps2Eth.Lib.CText

/-!
# The configuration of the smap driver on its command line

`ParseSmapConfiguration` of `smap/smap.c` reads a decimal numeral, or a hexadecimal
one behind `0x`. Characters are classified by subtractions that wrap around. A
hexadecimal digit above nine gets a value that no base admits.
-/

namespace Ps2Eth.Smap

open CText

/-- A `char`, which is signed, as an `unsigned int`. -/
def unsignedOf (c : UInt8) : UInt32 := c.toInt8.toInt32.toUInt32

/-- `value` of a character, unless it fails. -/
def digitValue (character : UInt32) : Option UInt32 :=
  if character - 0x30 < 10 then some (character - 0x30)
  else if character - 0x61 < 6 then some (character - 0x61 - 0x57)
  else none

/-- The loop of `ParseSmapConfiguration`: it ends with the text, or fails at a character
that is no digit of the base. -/
def scanNumber (base result : UInt32) : List UInt8 → Option UInt32
  | [] => some result
  | c :: rest =>
    match digitValue (unsignedOf c) with
    | none => none
    | some value => if value ≥ base then none else scanNumber base (result * base + value) rest

/-- Where `DigitStart` is, and the base. -/
def digitStart (cmd : CString) : Nat × UInt32 :=
  if cmd.at 0 = 0x30 then
    if cmd.at 1 ≠ 0 then
      if cmd.at 1 = 0x78 then (2, 16) else (1, 10)
    else (0, 10)
  else (0, 10)

/-- `ParseSmapConfiguration`: what it returns, and what is in `*configuration`. -/
def parseSmapConfiguration (cmd : CString) (configuration : UInt32) : Int × UInt32 :=
  let start := digitStart cmd
  if cmd.at start.1 = 0 then (-1, configuration)
  else
    match scanNumber start.2 0 (cmd.chars.drop start.1) with
    | none => (-1, configuration)
    | some result => (0, result)

/-- `'a'` to `'f'`, the digits that only a hexadecimal numeral has. -/
def IsLetter (c : UInt8) : Prop := 0x61 ≤ c ∧ c ≤ 0x66

/-- Whether a character is a letter can be computed. -/
instance (c : UInt8) : Decidable (IsLetter c) := inferInstanceAs (Decidable (_ ∧ _))

/-- What a hexadecimal digit counts. -/
def hexDigitOf (c : UInt8) : Nat := if IsDigit c then digitOf c else c.toNat - 0x61 + 10

/-- The numerals that are to be accepted, and what they count. -/
inductive Numeral : List UInt8 → Nat → Prop
  | decimal (digits : List UInt8) (some : digits ≠ []) (decimal : ∀ c ∈ digits, IsDigit c) :
      Numeral digits (value 10 (digits.map digitOf))
  | hexadecimal (digits : List UInt8) (some : digits ≠ [])
      (hexadecimal : ∀ c ∈ digits, IsDigit c ∨ IsLetter c) :
      Numeral (0x30 :: 0x78 :: digits) (value 16 (digits.map hexDigitOf))

/-- Numerals are accepted and stored, other strings are refused. -/
structure Parses (cmd : CString) (configuration : UInt32) : Prop where
  accepts : ∀ count, Numeral cmd.chars count →
    parseSmapConfiguration cmd configuration = (0, UInt32.ofNat count)
  refuses : (∀ count, ¬ Numeral cmd.chars count) →
    parseSmapConfiguration cmd configuration = (-1, configuration)

/-- A hexadecimal numeral with a digit above nine. -/
def LetterNumeral (chars : List UInt8) : Prop :=
  ∃ digits, chars = 0x30 :: 0x78 :: digits ∧ (∀ c ∈ digits, IsDigit c ∨ IsLetter c) ∧
    ∃ c ∈ digits, IsLetter c

/-- In both bases the decimal digits alone are taken: a letter gets a value far above. -/
theorem digitValue_taken : ∀ n < 256, ∀ base ∈ [(10 : UInt32), 16],
    ((digitValue (unsignedOf (UInt8.ofNat n))).filter fun value => ¬ value ≥ base) =
      if IsDigit (UInt8.ofNat n) then some (UInt32.ofNat (digitOf (UInt8.ofNat n))) else none := by
  intro n small base known
  simp only [List.mem_cons, List.not_mem_nil, or_false] at known
  rcases known with rfl | rfl
  · revert n small
    decide +kernel
  · revert n small
    decide +kernel

/-- A character is taken if it is a decimal digit. -/
theorem scanNumber_cons {base : UInt32} (known : base ∈ [(10 : UInt32), 16]) (result : UInt32)
    (c : UInt8) (rest : List UInt8) :
    scanNumber base result (c :: rest) =
      if IsDigit c then scanNumber base (result * base + UInt32.ofNat (digitOf c)) rest
      else none := by
  have taken := digitValue_taken c.toNat c.toNat_lt base known
  rw [UInt8.ofNat_toNat] at taken
  rw [scanNumber]
  cases classified : digitValue (unsignedOf c) with
  | none =>
    rw [classified, Option.filter_none] at taken
    by_cases digit : IsDigit c
    · rw [if_pos digit] at taken
      cases taken
    · rw [if_neg digit]
  | some value =>
    rw [classified, Option.filter_some] at taken
    by_cases high : value ≥ base
    · by_cases digit : IsDigit c
      · rw [if_pos digit, if_neg (by simpa using high)] at taken
        cases taken
      · simp only [if_pos high, if_neg digit]
    · by_cases digit : IsDigit c
      · rw [if_pos digit, if_pos (by simpa using high)] at taken
        obtain rfl := Option.some.inj taken
        simp only [if_neg high, if_pos digit]
      · rw [if_neg digit, if_pos (by simpa using high)] at taken
        cases taken

/-- Whether all characters are digits can be computed. -/
instance (chars : List UInt8) : Decidable (∀ c ∈ chars, IsDigit c) :=
  List.decidableBAll IsDigit chars

/-- The loop takes decimal digits in both bases. -/
theorem scanNumber_eq {base : UInt32} (known : base ∈ [(10 : UInt32), 16]) (result : UInt32)
    (chars : List UInt8) :
    scanNumber base result chars =
      if ∀ c ∈ chars, IsDigit c then
        some (accumulate base result (chars.map fun c => UInt32.ofNat (digitOf c)))
      else none := by
  induction chars generalizing result with
  | nil => rw [if_pos (List.forall_mem_nil _)]; rfl
  | cons c rest inductionHypothesis =>
    rw [scanNumber_cons known, inductionHypothesis]
    by_cases digit : IsDigit c
    · rw [if_pos digit]
      simp only [List.forall_mem_cons, digit, true_and, List.map_cons, accumulate, List.foldl_cons]
    · rw [if_neg digit, if_neg]
      intro all
      exact digit (all c (List.mem_cons_self ..))

/-- What is read from one or more decimal digits. -/
def decimals (base : UInt32) (chars : List UInt8) : Option UInt32 :=
  if chars ≠ [] ∧ ∀ c ∈ chars, IsDigit c then
    some (UInt32.ofNat (value base.toNat (chars.map digitOf)))
  else none

/-- What is read from a string: decimal digits alone, in the base of the prefix. -/
def taken (chars : List UInt8) : Option UInt32 :=
  if chars.take 2 = [0x30, 0x78] then decimals 16 (chars.drop 2) else decimals 10 chars

/-- The loop after the test for the end of the string. -/
theorem scanNumber_decimals {base : UInt32} (known : base ∈ [(10 : UInt32), 16])
    {chars : List UInt8} (some : chars ≠ []) : scanNumber base 0 chars = decimals base chars := by
  rw [scanNumber_eq known, decimals, accumulate_zero]
  simp only [some, ne_eq, not_false_eq_true, true_and]

/-- A leading zero counts nothing. -/
theorem decimals_zero {chars : List UInt8} (some : chars ≠ []) :
    decimals 10 (0x30 :: chars) = decimals 10 chars := by
  have zero : digitOf 0x30 = 0 := rfl
  have digit : IsDigit 0x30 := by decide
  simp only [decimals, ne_eq, reduceCtorEq, not_false_eq_true, List.forall_mem_cons, digit, true_and,
    some, List.map_cons, value_cons, zero, zero_mul, zero_add]

/-- After the test for the end of the string, what the digits from there on count is stored. -/
theorem parseSmapConfiguration_from {cmd : CString} {start : Nat} {base : UInt32}
    (known : base ∈ [(10 : UInt32), 16]) (begins : digitStart cmd = (start, base))
    (configuration : UInt32) :
    parseSmapConfiguration cmd configuration =
      ((decimals base (cmd.chars.drop start)).map fun result => ((0 : Int), result)).getD
        (-1, configuration) := by
  by_cases inside : start < cmd.chars.length
  · have some : cmd.chars.drop start ≠ [] := by
      rw [ne_eq, List.drop_eq_nil_iff]
      omega
    simp only [parseSmapConfiguration, begins, if_neg (cmd.at_ne_zero inside),
      scanNumber_decimals known some]
    cases decimals base (cmd.chars.drop start) <;> rfl
  · have none : cmd.chars.drop start = [] := List.drop_eq_nil_of_le (by omega)
    have zero : cmd.at start = 0 := List.getD_eq_default _ _ (by omega)
    rw [parseSmapConfiguration, begins, if_pos zero, none]
    rfl

/-- `ParseSmapConfiguration` stores what is read, or fails. -/
theorem parseSmapConfiguration_eq (cmd : CString) (configuration : UInt32) :
    parseSmapConfiguration cmd configuration =
      ((taken cmd.chars).map fun result => ((0 : Int), result)).getD (-1, configuration) := by
  have ten : (10 : UInt32) ∈ [(10 : UInt32), 16] := by decide
  have sixteen : (16 : UInt32) ∈ [(10 : UInt32), 16] := by decide
  cases chars : cmd.chars with
  | nil =>
    have start : digitStart cmd = (0, 10) := by
      simp only [digitStart, CString.at, chars]
      rfl
    rw [parseSmapConfiguration_from ten start, chars]
    rfl
  | cons c rest =>
    have first : cmd.at 0 = c := by
      rw [CString.at, chars, List.getD_cons_zero]
    by_cases zero : c = 0x30
    · cases rest with
      | nil =>
        have start : digitStart cmd = (0, 10) := by
          have ends : cmd.at 1 = 0 := by
            rw [CString.at, chars]
            rfl
          rw [digitStart, first, if_pos zero, if_neg (not_not.mpr ends)]
        rw [parseSmapConfiguration_from ten start, chars, List.drop_zero, taken, if_neg]
        simp
      | cons d rest =>
        have second : cmd.at 1 = d := by
          rw [CString.at, chars, List.getD_cons_succ, List.getD_cons_zero]
        have more : d ≠ 0 := by
          rw [← second]
          apply cmd.at_ne_zero
          simp [chars]
        by_cases hexadecimal : d = 0x78
        · have start : digitStart cmd = (2, 16) := by
            rw [digitStart, first, second, if_pos zero, if_pos more, if_pos hexadecimal]
          rw [parseSmapConfiguration_from sixteen start, chars, taken, zero, hexadecimal]
          rfl
        · have start : digitStart cmd = (1, 10) := by
            rw [digitStart, first, second, if_pos zero, if_pos more, if_neg hexadecimal]
          rw [parseSmapConfiguration_from ten start, chars, taken, if_neg (by simp [hexadecimal]), zero,
            List.drop_succ_cons, List.drop_zero, decimals_zero (List.cons_ne_nil d rest)]
    · have start : digitStart cmd = (0, 10) := by
        rw [digitStart, first, if_neg zero]
      rw [parseSmapConfiguration_from ten start, chars, List.drop_zero, taken,
        if_neg (by simp [zero])]

/-- The letters are the only hexadecimal digits that count otherwise. -/
theorem hexDigitOf_digits {digits : List UInt8} (decimal : ∀ c ∈ digits, IsDigit c) :
    digits.map hexDigitOf = digits.map digitOf := by
  apply List.map_congr_left
  intro c inDigits
  rw [hexDigitOf, if_pos (decimal c inDigits)]

/-- Numerals without letters are what is read. -/
theorem taken_numeral {chars : List UInt8} {count : Nat} (numeral : Numeral chars count)
    (noLetters : ¬ LetterNumeral chars) : taken chars = some (UInt32.ofNat count) := by
  cases numeral with
  | decimal digits some decimal =>
    have plain : chars.take 2 ≠ [0x30, 0x78] := by
      intro prefixed
      have second : (0x78 : UInt8) ∈ chars := by
        apply List.mem_of_mem_take
        rw [prefixed]
        exact List.mem_cons_of_mem _ (List.mem_cons_self ..)
      exact absurd (decimal _ second) (by decide)
    rw [taken, if_neg plain, decimals, if_pos ⟨some, decimal⟩]
    rfl
  | hexadecimal digits some hexadecimal =>
    have decimal : ∀ c ∈ digits, IsDigit c := by
      intro c inDigits
      rcases hexadecimal c inDigits with digit | letter
      · exact digit
      · exact absurd ⟨digits, rfl, hexadecimal, c, inDigits, letter⟩ noLetters
    rw [taken, List.take_succ_cons, List.take_succ_cons, List.take_zero, if_pos rfl,
      List.drop_succ_cons, List.drop_succ_cons, List.drop_zero, decimals, if_pos ⟨some, decimal⟩,
      hexDigitOf_digits decimal]
    rfl

/-- What is read is a numeral, and has no letters.

Proof: by whether the text starts with `0x`, as the parser tells the two bases apart. The
digits that it takes are decimal in both cases, so a letter would have stopped it. -/
theorem numeral_of_taken {chars : List UInt8} {result : UInt32} (read : taken chars = some result) :
    (∃ count, Numeral chars count) ∧ ¬ LetterNumeral chars := by
  rw [taken] at read
  split at read
  case isTrue prefixed =>
    obtain ⟨rest, rfl⟩ : ∃ rest, chars = 0x30 :: 0x78 :: rest := by
      have parts := List.take_append_drop 2 chars
      rw [prefixed] at parts
      exact ⟨chars.drop 2, parts.symm⟩
    rw [List.drop_succ_cons, List.drop_succ_cons, List.drop_zero, decimals] at read
    split at read
    case isTrue digits =>
      constructor
      · refine ⟨_, .hexadecimal rest digits.1 ?_⟩
        exact fun c inDigits => Or.inl (digits.2 c inDigits)
      · rintro ⟨others, same, -, c, inOthers, letter⟩
        obtain rfl : rest = others := by simpa using same
        have digit := digits.2 c inOthers
        exact absurd (UInt8.le_trans letter.1 digit.2) (by decide)
    case isFalse => cases read
  case isFalse plain =>
    rw [decimals] at read
    split at read
    case isTrue digits =>
      constructor
      · exact ⟨_, .decimal chars digits.1 digits.2⟩
      · rintro ⟨rest, whole, -⟩
        rw [whole] at plain
        exact plain rfl
    case isFalse => cases read

/-- `ParseSmapConfiguration` accepts exactly the numerals, except where one has a letter.

Proof: the parser is first computed as a function on characters. It takes exactly what the
grammar takes, with a value of its own for letters, so it is wrong exactly where there is
one. -/
theorem parses_iff (cmd : CString) (configuration : UInt32) :
    Parses cmd configuration ↔ ¬ LetterNumeral cmd.chars := by
  have parsed := parseSmapConfiguration_eq cmd configuration
  constructor
  · rintro parses ⟨digits, prefixed, hexadecimal, c, inDigits, letter⟩
    have numeral : Numeral cmd.chars (value 16 (digits.map hexDigitOf)) := by
      rw [prefixed]
      exact .hexadecimal digits (List.ne_nil_of_mem inDigits) hexadecimal
    rw [parses.accepts _ numeral] at parsed
    cases read : taken cmd.chars with
    | none =>
      rw [read] at parsed
      have failed : (0 : Int) = -1 := congrArg Prod.fst parsed
      exact absurd failed (by decide)
    | some result =>
      exact (numeral_of_taken read).2 ⟨digits, prefixed, hexadecimal, c, inDigits, letter⟩
  · intro noLetters
    constructor
    · intro count numeral
      rw [parsed, taken_numeral numeral noLetters]
      rfl
    · intro noNumeral
      cases read : taken cmd.chars with
      | none =>
        rw [parsed, read]
        rfl
      | some result =>
        obtain ⟨count, numeral⟩ := (numeral_of_taken read).1
        exact absurd numeral (noNumeral count)

/-- `0xa` is a numeral and is refused: the value that the code computes for the letter
wraps round, and is not below the base. -/
theorem parses_letter : ∃ cmd : CString, ∀ configuration,
    Numeral cmd.chars 10 ∧ parseSmapConfiguration cmd configuration = (-1, configuration) ∧
      ¬ Parses cmd configuration := by
  refine ⟨⟨[0x30, 0x78, 0x61], by decide⟩, ?_⟩
  intro configuration
  have letter : ∀ c ∈ [(0x61 : UInt8)], IsDigit c ∨ IsLetter c := by
    intro c member
    obtain rfl := List.mem_singleton.mp member
    exact Or.inr (by decide)
  have numeral : Numeral [0x30, 0x78, 0x61] 10 := .hexadecimal [0x61] (by decide) letter
  have refused : parseSmapConfiguration ⟨[0x30, 0x78, 0x61], by decide⟩ configuration =
      (-1, configuration) := by
    rw [parseSmapConfiguration_eq]
    rfl
  refine ⟨numeral, refused, ?_⟩
  intro parses
  have accepted := parses.accepts 10 numeral
  rw [refused] at accepted
  have failed : (-1 : Int) = 0 := congrArg Prod.fst accepted
  exact absurd failed (by decide)

end Ps2Eth.Smap
