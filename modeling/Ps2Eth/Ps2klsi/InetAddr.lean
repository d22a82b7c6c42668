import Ps2Eth.Lib.CText
import Ps2Eth.Lib.While

/-!
# Addresses on the command line of the ps2klsi driver

`inet_addr` of `ps2klsi/driver.c` moves its cursor on over digits and dots only. The
range of a field is checked at the dot behind it, and what comes before the end of
the string is a field whatever it looks like.
-/

namespace Ps2Eth.Ps2klsi

open CText While

/-- The variables of `inet_addr`, with what is left of the string behind `cp`. -/
structure InetState where
  cp : List UInt8
  val : UInt32
  part : Nat
  address : UInt32

/-- `val << (part * 8)`. -/
def shifted (val : UInt32) (part : Nat) : UInt32 := val <<< UInt32.ofNat (part * 8)

/-- One turn of the loop of `inet_addr`, or its end. -/
def inetStep (state : InetState) : InetState ⊕ UInt32 :=
  match state.cp with
  | [] => .inr (state.address ||| shifted state.val state.part)
  | c :: rest =>
    if IsDigit c then
      .inl { state with cp := rest, val := state.val * 10 + UInt32.ofNat (digitOf c) }
    else if c = 0x2e then
      if 3 ≤ state.part ∨ 255 < state.val then .inr 0xffffffff
      else
        .inl ⟨rest, 0, state.part + 1, state.address ||| shifted state.val state.part⟩
    else .inl state

/-- `inet_addr` returns `address`, after some number of turns of its loop. -/
def InetAddr (str : CString) (address : UInt32) : Prop :=
  Returns inetStep ⟨str.chars, 0, 0, 0⟩ address

/-- The digits of a field. -/
def Digits (field : List UInt8) : Prop := ∀ c ∈ field, IsDigit c

/-- What a field counts, its digits read in base ten. -/
def fieldValue (field : List UInt8) : Nat := value 10 (field.map digitOf)

/-- A field of a dotted quad. -/
structure Field (field : List UInt8) : Prop where
  some : field ≠ []
  digits : Digits field
  small : fieldValue field ≤ 255

/-- Fields, each with a dot behind it. -/
def dotted (fields : List (List UInt8)) : List UInt8 := fields.flatMap fun field => field ++ [0x2e]

/-- A dotted quad, and its address. -/
inductive Quad : List UInt8 → Nat → Prop
  | intro (a b c d : List UInt8) (first : Field a) (second : Field b) (third : Field c)
      (fourth : Field d) :
      Quad (dotted [a, b, c] ++ d)
        (fieldValue a + 2 ^ 8 * fieldValue b + 2 ^ 16 * fieldValue c + 2 ^ 24 * fieldValue d)

/-- `inet_addr` terminates, with the address of a dotted quad, and with -1 for other
strings. -/
structure ParsesQuads (str : CString) : Prop where
  terminates : ∃ address, InetAddr str address
  accepts : ∀ address, Quad str.chars address → InetAddr str (UInt32.ofNat address)
  refuses : (∀ address, ¬ Quad str.chars address) → InetAddr str 0xffffffff

/-- The fields put together, from `part` on. -/
def packed (part : Nat) (address : UInt32) : List (List UInt8) → UInt32
  | [] => address
  | field :: rest =>
    packed (part + 1) (address ||| shifted (UInt32.ofNat (fieldValue field)) part) rest

/-- The strings for which `inet_addr` does what it is for. -/
inductive Answered (chars : List UInt8) : Prop
  /-- A dotted quad. -/
  | quad (address : Nat) (quad : Quad chars address)
  /-- Digits and dots up to a fourth dot, or up to the dot behind a field that is above
  255 modulo `2 ^ 32`. -/
  | refused (fields : List (List UInt8)) (rest : List UInt8) (digits : ∀ field ∈ fields, Digits field)
      (starts : chars = dotted fields ++ rest)
      (wrong : 4 ≤ fields.length ∨ ∃ field ∈ fields, 255 < fieldValue field % 2 ^ 32)
  /-- Digits and dots only, and all bits of the address set. -/
  | ones (fields : List (List UInt8)) (last : List UInt8) (digits : ∀ field ∈ fields, Digits field)
      (lastDigits : Digits last) (whole : chars = dotted fields ++ last)
      (full : packed 0 0 (fields ++ [last]) = 0xffffffff)

/-- What is returned from a state, if the loop ends. -/
def returned (val : UInt32) (part : Nat) (address : UInt32) : List UInt8 → Option UInt32
  | [] => some (address ||| shifted val part)
  | c :: rest =>
    if IsDigit c then returned (val * 10 + UInt32.ofNat (digitOf c)) part address rest
    else if c = 0x2e then
      if 3 ≤ part ∨ 255 < val then some 0xffffffff
      else returned 0 (part + 1) (address ||| shifted val part) rest
    else none

/-- The loop returns that, and otherwise does not end. -/
theorem returns_iff (val : UInt32) (part : Nat) (address : UInt32) (chars : List UInt8)
    (result : UInt32) :
    Returns inetStep ⟨chars, val, part, address⟩ result ↔
      returned val part address chars = some result := by
  induction chars generalizing val part address with
  | nil =>
    have done : inetStep ⟨[], val, part, address⟩ = .inr (address ||| shifted val part) := rfl
    rw [returns_done done, returned, Option.some.injEq, eq_comm]
  | cons c rest inductionHypothesis =>
    rw [returned]
    by_cases digit : IsDigit c
    · have next : inetStep ⟨c :: rest, val, part, address⟩ =
          .inl ⟨rest, val * 10 + UInt32.ofNat (digitOf c), part, address⟩ := if_pos digit
      rw [returns_next next, inductionHypothesis, if_pos digit]
    · rw [if_neg digit]
      by_cases dot : c = 0x2e
      · rw [if_pos dot]
        by_cases illegal : 3 ≤ part ∨ 255 < val
        · have done : inetStep ⟨c :: rest, val, part, address⟩ = .inr 0xffffffff := by
            simp only [inetStep, if_neg digit, if_pos dot, if_pos illegal]
          rw [returns_done done, if_pos illegal, Option.some.injEq, eq_comm]
        · have next : inetStep ⟨c :: rest, val, part, address⟩ =
              .inl ⟨rest, 0, part + 1, address ||| shifted val part⟩ := by
            simp only [inetStep, if_neg digit, if_pos dot, if_neg illegal]
          rw [returns_next next, inductionHypothesis, if_neg illegal]
      · have stuck : inetStep ⟨c :: rest, val, part, address⟩ =
            .inl ⟨c :: rest, val, part, address⟩ := by
          simp only [inetStep, if_neg digit, if_neg dot]
        rw [if_neg dot]
        exact iff_of_false (not_returns_stuck stuck result) (Option.some_ne_none result).symm

/-- What the loop of `inet_addr` returns is what its recursion over the characters gives,
and it gives nothing where the loop never ends. -/
theorem inetAddr_iff (str : CString) (address : UInt32) :
    InetAddr str address ↔ returned 0 0 0 str.chars = some address := returns_iff ..

/-- Digits are accumulated, each with the ones before it ten times as much. -/
theorem returned_digits (val : UInt32) (part : Nat) (address : UInt32) {field : List UInt8}
    (digits : Digits field) (rest : List UInt8) :
    returned val part address (field ++ rest) =
      returned (accumulate 10 val (field.map fun c => UInt32.ofNat (digitOf c))) part address rest := by
  induction field generalizing val with
  | nil => rfl
  | cons c field inductionHypothesis =>
    have others : Digits field := fun d inField => digits d (List.mem_cons_of_mem _ inField)
    rw [List.cons_append, returned, if_pos (digits c (List.mem_cons_self ..)),
      inductionHypothesis _ others, List.map_cons, accumulate, accumulate, List.foldl_cons]

/-- A field from its first character on. -/
theorem returned_field (part : Nat) (address : UInt32) {field : List UInt8} (digits : Digits field)
    (rest : List UInt8) :
    returned 0 part address (field ++ rest) =
      returned (UInt32.ofNat (fieldValue field)) part address rest := by
  rw [returned_digits 0 part address digits, accumulate_zero]
  rfl

/-- A field with its dot. -/
theorem returned_dot (part : Nat) (address : UInt32) {field : List UInt8} (digits : Digits field)
    (rest : List UInt8) :
    returned 0 part address (field ++ 0x2e :: rest) =
      if 3 ≤ part ∨ 255 < fieldValue field % 2 ^ 32 then some 0xffffffff
      else
        returned 0 (part + 1) (address ||| shifted (UInt32.ofNat (fieldValue field)) part) rest := by
  have wrapped : 255 < UInt32.ofNat (fieldValue field) ↔ 255 < fieldValue field % 2 ^ 32 := by
    rw [UInt32.lt_iff_toNat_lt, UInt32.toNat_ofNat']
    rfl
  have noDigit : ¬ IsDigit 0x2e := by decide
  rw [returned_field part address digits, returned, if_neg noDigit, if_pos rfl]
  simp only [wrapped]

/-- Fields that are read on from `part` are refused at a dot. -/
def Refused (part : Nat) (fields : List (List UInt8)) : Prop :=
  4 ≤ part + fields.length ∨ ∃ field ∈ fields, 255 < fieldValue field % 2 ^ 32

/-- The fields behind dots are put together, unless they are refused. -/
theorem returned_dotted {part : Nat} (open_ : part ≤ 3) (address : UInt32)
    {fields : List (List UInt8)} (digits : ∀ field ∈ fields, Digits field) (rest : List UInt8) :
    (Refused part fields → returned 0 part address (dotted fields ++ rest) = some 0xffffffff) ∧
      (¬ Refused part fields → returned 0 part address (dotted fields ++ rest) =
        returned 0 (part + fields.length) (packed part address fields) rest) := by
  induction fields generalizing part address with
  | nil =>
    have accepted : ¬ Refused part [] := by
      rintro (many | ⟨field, inFields, -⟩)
      · rw [List.length_nil] at many
        omega
      · cases inFields
    exact ⟨fun refused => absurd refused accepted, fun _ => rfl⟩
  | cons field fields inductionHypothesis =>
    have fieldDigits := digits field (List.mem_cons_self ..)
    have others : ∀ other ∈ fields, Digits other :=
      fun other inFields => digits other (List.mem_cons_of_mem _ inFields)
    have split : dotted (field :: fields) ++ rest = field ++ 0x2e :: (dotted fields ++ rest) := by
      simp only [dotted, List.flatMap_cons, List.append_assoc, List.cons_append, List.nil_append]
    rw [split, returned_dot part address fieldDigits]
    by_cases illegal : 3 ≤ part ∨ 255 < fieldValue field % 2 ^ 32
    · rw [if_pos illegal]
      refine ⟨fun _ => rfl, ?_⟩
      intro accepted
      exfalso
      apply accepted
      rcases illegal with many | large
      · left
        rw [List.length_cons]
        omega
      · exact Or.inr ⟨field, List.mem_cons_self .., large⟩
    · rw [if_neg illegal]
      have later : part + 1 ≤ 3 := by omega
      obtain ⟨whenRefused, whenAccepted⟩ := inductionHypothesis later
        (address ||| shifted (UInt32.ofNat (fieldValue field)) part) others
      have count : part + (field :: fields).length = part + 1 + fields.length := by
        rw [List.length_cons]
        omega
      have same : Refused part (field :: fields) ↔ Refused (part + 1) fields := by
        have small : ¬ 255 < fieldValue field % 2 ^ 32 := fun large => illegal (Or.inr large)
        simp only [Refused, count, List.mem_cons, exists_eq_or_imp, small, false_or]
      rw [same, count, packed]
      exact ⟨whenRefused, whenAccepted⟩

/-- The last field is put in behind the others, at the place that their number gives. -/
theorem packed_snoc (part : Nat) (address : UInt32) (fields : List (List UInt8)) (last : List UInt8) :
    packed part address (fields ++ [last]) =
      packed part address fields |||
        shifted (UInt32.ofNat (fieldValue last)) (part + fields.length) := by
  induction fields generalizing part address with
  | nil => rfl
  | cons field fields inductionHypothesis =>
    have count : part + 1 + fields.length = part + (field :: fields).length := by
      rw [List.length_cons]
      omega
    rw [List.cons_append, packed, inductionHypothesis, packed, count]

/-- A string of digits and dots is put together, unless it is refused. -/
theorem returned_whole {fields : List (List UInt8)} {last : List UInt8}
    (digits : ∀ field ∈ fields, Digits field) (lastDigits : Digits last) :
    (Refused 0 fields → returned 0 0 0 (dotted fields ++ last) = some 0xffffffff) ∧
      (¬ Refused 0 fields →
        returned 0 0 0 (dotted fields ++ last) = some (packed 0 0 (fields ++ [last]))) := by
  obtain ⟨whenRefused, whenAccepted⟩ := returned_dotted (Nat.zero_le 3) 0 digits last
  refine ⟨whenRefused, ?_⟩
  intro accepted
  have field := returned_field (0 + fields.length) (packed 0 0 fields) lastDigits []
  rw [List.append_nil] at field
  rw [whenAccepted accepted, field, returned, packed_snoc]

/-- Every string is fields with dots, one more field, and the end or a character that is
neither digit nor dot. -/
theorem exists_fields (chars : List UInt8) : ∃ fields last rest,
    (∀ field ∈ fields, Digits field) ∧ Digits last ∧ chars = dotted fields ++ (last ++ rest) ∧
      ∀ c ∈ rest.head?, ¬ IsDigit c ∧ c ≠ 0x2e := by
  induction chars with
  | nil =>
    refine ⟨[], [], [], ?_, ?_, rfl, ?_⟩
    · intro field inFields
      cases inFields
    · intro c inLast
      cases inLast
    · intro c first
      cases first
  | cons c chars inductionHypothesis =>
    obtain ⟨fields, last, rest, digits, lastDigits, parts, ends⟩ := inductionHypothesis
    by_cases digit : IsDigit c
    · cases fields with
      | nil =>
        refine ⟨[], c :: last, rest, digits, List.forall_mem_cons.mpr ⟨digit, lastDigits⟩, ?_, ends⟩
        rw [parts]
        rfl
      | cons field fields =>
        have longer : Digits (c :: field) :=
          List.forall_mem_cons.mpr ⟨digit, digits field (List.mem_cons_self ..)⟩
        refine ⟨(c :: field) :: fields, last, rest, ?_, lastDigits, ?_, ends⟩
        · rw [List.forall_mem_cons] at digits ⊢
          exact ⟨longer, digits.2⟩
        · rw [parts]
          rfl
    · by_cases dot : c = 0x2e
      · have empty : Digits [] := List.forall_mem_nil _
        refine ⟨[] :: fields, last, rest, List.forall_mem_cons.mpr ⟨empty, digits⟩, lastDigits, ?_, ends⟩
        rw [parts, dot]
        rfl
      · refine ⟨[], [], c :: chars, ?_, List.forall_mem_nil _, rfl, ?_⟩
        · intro field inFields
          cases inFields
        · intro first isFirst
          obtain rfl : c = first := by simpa using isFirst
          exact ⟨digit, dot⟩

/-- A character that is neither digit nor dot stops the cursor. -/
theorem returned_stuck (val : UInt32) (part : Nat) (address : UInt32) {c : UInt8}
    (rest : List UInt8) (noDigit : ¬ IsDigit c) (noDot : c ≠ 0x2e) :
    returned val part address (c :: rest) = none := by
  rw [returned, if_neg noDigit, if_neg noDot]

/-- A field of one byte at one of the four places has the value of its byte there, and no
bit is lost. -/
theorem shifted_toNat {n part : Nat} (small : n ≤ 255) (inWord : part ≤ 3) :
    (shifted (UInt32.ofNat n) part).toNat = 2 ^ (8 * part) * n := by
  have power : 2 ^ (8 * part) ≤ 2 ^ 24 := Nat.pow_le_pow_right (by decide) (by omega)
  have bound : 2 ^ (8 * part) * n ≤ 2 ^ 24 * 255 := Nat.mul_le_mul power small
  have bits : (UInt32.ofNat (part * 8)).toNat % 32 = 8 * part := by
    rw [UInt32.toNat_ofNat_of_lt' (by rw [UInt32.size]; omega)]
    omega
  rw [shifted, UInt32.toNat_shiftLeft, bits, UInt32.toNat_ofNat_of_lt' (by rw [UInt32.size]; omega),
    Nat.shiftLeft_eq, Nat.mul_comm, Nat.mod_eq_of_lt (by omega)]

/-- A byte above the others is added to them. -/
theorem or_byte {low part n : Nat} (below : low < 2 ^ (8 * part)) :
    low ||| 2 ^ (8 * part) * n = low + 2 ^ (8 * part) * n := by
  rw [Nat.mul_comm, ← Nat.shiftLeft_eq, Nat.or_comm, ← Nat.shiftLeft_add_eq_or_of_lt below,
    Nat.add_comm]

/-- Four bytes are joined without carries. -/
theorem packed_bytes {a b c d : Nat} (aSmall : a ≤ 255) (bSmall : b ≤ 255) (cSmall : c ≤ 255)
    (dSmall : d ≤ 255) :
    0 ||| shifted (UInt32.ofNat a) 0 ||| shifted (UInt32.ofNat b) 1 ||| shifted (UInt32.ofNat c) 2 |||
        shifted (UInt32.ofNat d) 3 =
      UInt32.ofNat (a + 2 ^ 8 * b + 2 ^ 16 * c + 2 ^ 24 * d) := by
  have two : 2 ^ (8 * 0) * a ||| 2 ^ (8 * 1) * b = 2 ^ (8 * 0) * a + 2 ^ (8 * 1) * b :=
    or_byte (by omega)
  have three : 2 ^ (8 * 0) * a + 2 ^ (8 * 1) * b ||| 2 ^ (8 * 2) * c =
      2 ^ (8 * 0) * a + 2 ^ (8 * 1) * b + 2 ^ (8 * 2) * c := or_byte (by omega)
  have four : 2 ^ (8 * 0) * a + 2 ^ (8 * 1) * b + 2 ^ (8 * 2) * c ||| 2 ^ (8 * 3) * d =
      2 ^ (8 * 0) * a + 2 ^ (8 * 1) * b + 2 ^ (8 * 2) * c + 2 ^ (8 * 3) * d := or_byte (by omega)
  apply UInt32.toNat_inj.mp
  rw [UInt32.toNat_or, UInt32.toNat_or, UInt32.toNat_or, UInt32.toNat_or, UInt32.toNat_zero,
    Nat.zero_or, shifted_toNat aSmall (by decide), shifted_toNat bSmall (by decide),
    shifted_toNat cSmall (by decide), shifted_toNat dSmall (by decide), two, three, four,
    UInt32.toNat_ofNat', Nat.mod_eq_of_lt (by omega)]
  omega

/-- A dotted quad is put together to its address. -/
theorem returned_quad {chars : List UInt8} {address : Nat} (quad : Quad chars address) :
    returned 0 0 0 chars = some (UInt32.ofNat address) := by
  cases quad with
  | intro a b c d first second third fourth =>
    have digits : ∀ field ∈ [a, b, c], Digits field := by
      simp only [List.forall_mem_cons, first.digits, second.digits, third.digits, true_and]
      exact List.forall_mem_nil _
    have accepted : ¬ Refused 0 [a, b, c] := by
      rintro (many | ⟨field, inFields, large⟩)
      · have length : [a, b, c].length = 3 := rfl
        omega
      · have small : fieldValue field ≤ 255 := by
          simp only [List.mem_cons, List.not_mem_nil, or_false] at inFields
          rcases inFields with rfl | rfl | rfl
          · exact first.small
          · exact second.small
          · exact third.small
        rw [Nat.mod_eq_of_lt (by omega)] at large
        omega
    rw [(returned_whole digits fourth.digits).2 accepted,
      ← packed_bytes first.small second.small third.small fourth.small]
    rfl

/-- `inet_addr` does what it is for exactly on the strings that are answered.

Proof: a string is divided into its dotted fields, of which the last is followed by its
end or by a character that stops the parser. The three kinds of string that are answered
are those on which the loop does not get stuck, or has refused before that. -/
theorem parsesQuads_iff (str : CString) : ParsesQuads str ↔ Answered str.chars := by
  constructor
  · intro parses
    by_cases isQuad : ∃ address, Quad str.chars address
    · obtain ⟨address, quad⟩ := isQuad
      exact .quad address quad
    · have refused := parses.refuses (not_exists.mp isQuad)
      obtain ⟨fields, last, rest, digits, lastDigits, parts, ends⟩ := exists_fields str.chars
      rw [inetAddr_iff, parts] at refused
      by_cases atDot : Refused 0 fields
      · apply Answered.refused fields (last ++ rest) digits parts
        simpa only [Refused, Nat.zero_add] using atDot
      · rw [(returned_dotted (Nat.zero_le 3) 0 digits _).2 atDot,
          returned_field _ _ lastDigits] at refused
        cases rest with
        | nil =>
          rw [List.append_nil] at parts
          refine .ones fields last digits lastDigits parts ?_
          rw [packed_snoc]
          exact Option.some.inj refused
        | cons c rest =>
          obtain ⟨noDigit, noDot⟩ := ends c rfl
          rw [returned_stuck _ _ _ rest noDigit noDot] at refused
          cases refused
  · intro answered
    have returns : ∃ address, returned 0 0 0 str.chars = some address ∧
        ((∀ address, ¬ Quad str.chars address) → address = 0xffffffff) := by
      cases answered with
      | quad address quad =>
        exact ⟨_, returned_quad quad, fun noQuad => absurd quad (noQuad address)⟩
      | refused fields rest digits starts wrong =>
        refine ⟨0xffffffff, ?_, fun _ => rfl⟩
        rw [starts]
        apply (returned_dotted (Nat.zero_le 3) 0 digits rest).1
        simpa only [Refused, Nat.zero_add] using wrong
      | ones fields last digits lastDigits whole full =>
        refine ⟨0xffffffff, ?_, fun _ => rfl⟩
        rw [whole]
        by_cases atDot : Refused 0 fields
        · exact (returned_whole digits lastDigits).1 atDot
        · rw [(returned_whole digits lastDigits).2 atDot, full]
    obtain ⟨address, returned, otherwise⟩ := returns
    constructor
    · exact ⟨address, (inetAddr_iff str address).mpr returned⟩
    · intro other quad
      exact (inetAddr_iff str _).mpr (returned_quad quad)
    · intro noQuad
      rw [inetAddr_iff, returned, otherwise noQuad]

/-- With a letter in the string the cursor stays, and `inet_addr` does not return. -/
theorem inetAddr_letter : ∃ str : CString, (∀ address, ¬ InetAddr str address) ∧
    ¬ ParsesQuads str := by
  have forever : ∀ address, ¬ InetAddr ⟨[0x31, 0x61], by decide⟩ address := by
    intro address returns
    rw [inetAddr_iff] at returns
    exact absurd returns (Option.some_ne_none address).symm
  refine ⟨⟨[0x31, 0x61], by decide⟩, forever, ?_⟩
  intro parses
  obtain ⟨address, returns⟩ := parses.terminates
  exact forever address returns

end Ps2Eth.Ps2klsi
