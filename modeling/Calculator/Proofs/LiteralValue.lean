/-
Module: Calculator.Proofs.LiteralValue
Layer: Proofs
Purpose: Literals from the text to the double. The literal cut off a text is the longest one that the text
  starts with, and a loop over the bytes of the text finds the same end, since a byte that could be a digit
  or a point is never part of another character. Its exact value is a rational: below 2^1024 - 2^970 the
  literal is read as the double that this value rounds to, from there on it is refused. So what is read
  depends on the value alone, and not on the zeros it is written with.
Imports: Calculator.Proofs.CorrectRounding, Calculator.Proofs.Spacing
Trusted boundary: none (fully proved)
Main exports: Text.bytes, Numeral.literalBytes, Numeral.literalBytes_bytes, Numeral.IsLongest,
  Numeral.exactValue, Numeral.read?_eq_some_iff_roundsTo, Numeral.literal_scanned_and_read
-/
import Calculator.Proofs.CorrectRounding
import Calculator.Proofs.Spacing

namespace Calculator

/-! ### Bytes -/

namespace Text

/-- The bytes of the UTF-8 encoding of a text. -/
def bytes (text : Text) : List UInt8 := text.flatMap String.utf8EncodeChar

@[simp] theorem bytes_nil : bytes [] = [] := rfl

@[simp] theorem bytes_cons (c : Char) (rest : Text) :
    bytes (c :: rest) = String.utf8EncodeChar c ++ bytes rest := rfl

@[simp] theorem bytes_append (s t : Text) : bytes (s ++ t) = bytes s ++ bytes t :=
  List.flatMap_append

/-- The encoding has as many bytes as the text is said to have. -/
theorem length_bytes (text : Text) : (bytes text).length = utf8Length text := by
  induction text with
  | nil => rfl
  | cons c rest ih =>
      rw [bytes_cons, List.length_append, String.length_utf8EncodeChar, ih, utf8Length_cons]

/-- Only the empty text has no bytes. -/
theorem utf8Length_eq_zero_iff {text : Text} : utf8Length text = 0 ↔ text = [] := by
  cases text with
  | nil => exact iff_of_true rfl rfl
  | cons c rest =>
      have hpos := c.utf8Size_pos
      refine iff_of_false ?_ (List.cons_ne_nil c rest)
      rw [utf8Length_cons]
      omega

end Text

namespace Numeral

/-- Whether a byte is that of a digit; the digits have the codes from 48 to 57. -/
def isDigitByte (byte : UInt8) : Bool := 48 ≤ byte && byte ≤ 57

/-- Only characters below 128 have a first byte below 128, and it is their only byte. -/
theorem exists_utf8EncodeChar (c : Char) :
    ∃ code rest, String.utf8EncodeChar c = UInt8.ofNat code :: rest ∧ code < 256 ∧
      (code = c.toNat ∧ rest = [] ∨ 128 ≤ code ∧ 128 ≤ c.toNat) := by
  have hcode : c.toNat = c.val.toNat := rfl
  unfold String.utf8EncodeChar
  simp only [hcode]
  generalize c.val.toNat = code
  split
  · exact ⟨code, [], rfl, by omega, .inl ⟨rfl, rfl⟩⟩
  · split
    · exact ⟨_, _, rfl, by omega, .inr ⟨by omega, by omega⟩⟩
    · split
      · exact ⟨_, _, rfl, by omega, .inr ⟨by omega, by omega⟩⟩
      · exact ⟨_, _, rfl, by omega, .inr ⟨by omega, by omega⟩⟩

theorem isDigitByte_ofNat {code : Nat} (h : code < 256) :
    isDigitByte (UInt8.ofNat code) = true ↔ '0'.toNat ≤ code ∧ code ≤ '9'.toNat := by
  simp only [isDigitByte, Bool.and_eq_true, decide_eq_true_eq, UInt8.le_iff_toNat_le,
    UInt8.toNat_ofNat_of_lt' h]
  exact Iff.rfl

/-- The first byte of a character tells digits and the point from all others. -/
theorem exists_first_byte (c : Char) :
    ∃ byte rest, String.utf8EncodeChar c = byte :: rest ∧ isDigitByte byte = c.isDigit ∧
      (byte = 46 ↔ c = '.') ∧ (c.isDigit = true → rest = []) := by
  obtain ⟨code, rest, hbytes, hlt, hcode⟩ := exists_utf8EncodeChar c
  have hnine : '9'.toNat = 57 := rfl
  refine ⟨_, rest, hbytes, ?_, ?_, ?_⟩
  · rw [Bool.eq_iff_iff, isDigitByte_ofNat hlt, Char.isDigit_iff_toNat]
    omega
  · rw [← UInt8.toNat_inj, UInt8.toNat_ofNat_of_lt' hlt, ← Char.toNat_inj]
    change code = 46 ↔ c.toNat = 46
    omega
  · intro hdigit
    have hle := (Char.isDigit_iff_toNat.1 hdigit).2
    rcases hcode with ⟨-, hrest⟩ | ⟨-, hwide⟩
    · exact hrest
    · omega

/-- The length of the literal at the start of a row of bytes. The digits are counted, and behind them a
    point, which has the code 46, with the digits behind it if there are any. -/
def literalBytes (bytes : List UInt8) : Nat :=
  let whole := (bytes.takeWhile isDigitByte).length
  if whole = 0 then 0
  else if bytes[whole]? = some 46 then
    let fraction := ((bytes.drop (whole + 1)).takeWhile isDigitByte).length
    if 0 < fraction then whole + 1 + fraction else whole
  else whole

/-- The bytes of digits at the start of a text are those of its leading digits. -/
theorem takeWhile_bytes (text : Text) :
    (Text.bytes text).takeWhile isDigitByte = Text.bytes (leadingDigits text) := by
  induction text with
  | nil => rfl
  | cons c rest ih =>
      obtain ⟨byte, tail, hbytes, hdigit, -, hsingle⟩ := exists_first_byte c
      rw [Text.bytes_cons, hbytes, List.cons_append, List.takeWhile_cons, hdigit, leadingDigits,
        List.takeWhile_cons]
      cases hc : c.isDigit with
      | false => rfl
      | true =>
          rw [hsingle hc] at hbytes ⊢
          rw [if_pos rfl, if_pos rfl, List.nil_append, ih, Text.bytes_cons, hbytes]
          rfl

/-- At a point, the literal goes on if digits stand on both sides. -/
theorem takeLiteral_of_point {text tail : Text} (h : skipDigits text = '.' :: tail) :
    (takeLiteral text).1 =
      if leadingDigits text = [] then []
      else if leadingDigits tail = [] then leadingDigits text
      else leadingDigits text ++ '.' :: leadingDigits tail := by
  simp only [takeLiteral, h, List.isEmpty_iff]
  split
  · rfl
  · split
    · rfl
    · rfl

/-- Without a point, the literal is the digits. -/
theorem takeLiteral_of_not_point {text : Text} (h : (skipDigits text).head? ≠ some '.') :
    (takeLiteral text).1 = leadingDigits text := by
  rw [takeLiteral_of_no_point]
  rintro c hc rfl
  exact h hc

/-- No character but the point starts with the byte of the point. -/
theorem head?_bytes_eq_point_iff {text : Text} :
    (Text.bytes text).head? = some 46 ↔ text.head? = some '.' := by
  cases text with
  | nil => exact iff_of_false nofun nofun
  | cons c rest =>
      obtain ⟨byte, tail, hbytes, -, hpoint, -⟩ := exists_first_byte c
      rw [Text.bytes_cons, hbytes, List.cons_append, List.head?_cons, List.head?_cons, Option.some.injEq,
        Option.some.injEq]
      exact hpoint

/-- Counted in bytes or in characters, the literal at the start of a text ends at the same place. -/
theorem literalBytes_bytes (text : Text) :
    literalBytes (Text.bytes text) = Text.utf8Length (takeLiteral text).1 := by
  have hparts : Text.bytes text =
      Text.bytes (leadingDigits text) ++ Text.bytes (skipDigits text) := by
    rw [← Text.bytes_append, leadingDigits_append_skipDigits]
  have hnext : (Text.bytes text)[(Text.bytes (leadingDigits text)).length]? =
      (Text.bytes (skipDigits text)).head? := by
    rw [hparts, List.getElem?_append_right (Nat.le_refl _), Nat.sub_self, List.head?_eq_getElem?]
  have hrest : (Text.bytes text).drop ((Text.bytes (leadingDigits text)).length + 1) =
      (Text.bytes (skipDigits text)).tail := by
    rw [List.drop_add_one_eq_tail_drop, hparts, List.drop_left]
  rw [literalBytes, takeWhile_bytes]
  dsimp only
  rw [hnext, hrest, Text.length_bytes]
  by_cases hpoint : (skipDigits text).head? = some '.'
  · obtain ⟨tail, htail⟩ := List.head?_eq_some_iff.1 hpoint
    have hfraction : (Text.bytes ('.' :: tail)).tail.takeWhile isDigitByte =
        Text.bytes (leadingDigits tail) := takeWhile_bytes tail
    rw [if_pos (head?_bytes_eq_point_iff.2 hpoint), htail, hfraction, Text.length_bytes,
      takeLiteral_of_point htail]
    by_cases hwhole : leadingDigits text = []
    · rw [if_pos (Text.utf8Length_eq_zero_iff.2 hwhole), if_pos hwhole]
      rfl
    · rw [if_neg (mt Text.utf8Length_eq_zero_iff.1 hwhole), if_neg hwhole]
      by_cases hempty : leadingDigits tail = []
      · rw [hempty]
        rfl
      · have hpos := mt Text.utf8Length_eq_zero_iff.1 hempty
        have hsize : ('.' : Char).utf8Size = 1 := rfl
        rw [if_pos (Nat.pos_of_ne_zero hpos), if_neg hempty, Text.utf8Length_append, Text.utf8Length_cons,
          hsize, Nat.add_assoc]
  · rw [if_neg (mt head?_bytes_eq_point_iff.1 hpoint), takeLiteral_of_not_point hpoint]
    split
    · rename_i hzero
      exact hzero.symm
    · rfl

/-! ### The longest literal -/

/-- The literal is the longest one that the text starts with, or empty if it starts with none. -/
structure IsLongest (literal text : Text) : Prop where
  lead : literal <+: text
  isLiteral : literal ≠ [] → IsLiteral literal
  longest : ∀ other, other <+: text → IsLiteral other → Text.utf8Length other ≤ Text.utf8Length literal

/-- The digits that a text starts with are cut off in any case. -/
theorem leadingDigits_prefix_takeLiteral (text : Text) : leadingDigits text <+: (takeLiteral text).1 := by
  by_cases hpoint : (skipDigits text).head? = some '.'
  · obtain ⟨tail, htail⟩ := List.head?_eq_some_iff.1 hpoint
    rw [takeLiteral_of_point htail]
    split
    · rename_i hwhole
      exact ⟨[], by rw [hwhole, List.append_nil]⟩
    · split
      · exact List.prefix_refl _
      · exact List.prefix_append _ _
  · exact ⟨[], by rw [takeLiteral_of_not_point hpoint, List.append_nil]⟩

/-- Every literal that a text starts with is a part of the one that is cut off. -/
theorem IsLiteral.prefix_takeLiteral {literal : Text} (h : IsLiteral literal) (rest : Text) :
    literal <+: (takeLiteral (literal ++ rest)).1 := by
  cases h with
  | whole hrow =>
      have hlead : leadingDigits (literal ++ rest) = literal ++ leadingDigits rest :=
        leadingDigits_append hrow.2 rest
      refine List.IsPrefix.trans ?_ (leadingDigits_prefix_takeLiteral _)
      rw [hlead]
      exact List.prefix_append _ _
  | @pointed whole fraction hwhole hfraction =>
      have hmore : leadingDigits (fraction ++ rest) = fraction ++ leadingDigits rest :=
        leadingDigits_append hfraction.2 rest
      have hne : fraction ++ leadingDigits rest ≠ [] :=
        List.append_ne_nil_of_left_ne_nil hfraction.1 _
      rw [List.append_assoc, List.cons_append, takeLiteral_of_point (skipDigits_pointed hwhole.2 _),
        leadingDigits_pointed hwhole.2, hmore, if_neg hwhole.1, if_neg hne]
      exact ⟨leadingDigits rest, by rw [List.append_assoc, List.cons_append]⟩

/-- What is cut off a text is the longest literal it starts with. -/
theorem isLongest_takeLiteral (text : Text) : IsLongest (takeLiteral text).1 text := by
  refine ⟨⟨(takeLiteral text).2, takeLiteral_append text⟩, ?_, ?_⟩
  · intro hne
    exact (isLiteral_of_takeLiteral rfl hne).1
  · rintro other ⟨rest, rfl⟩ hother
    obtain ⟨more, hmore⟩ := hother.prefix_takeLiteral rest
    rw [← hmore, Text.utf8Length_append]
    exact Nat.le_add_right _ _

/-! ### Exact values -/

/-- The digits behind the point of a literal. -/
def fractionDigits (literal : Text) : Text := (literal.dropWhile (· ≠ '.')).tail

/-- The exact value of a plain literal: its whole part, and the digits behind the point as so many places. -/
def exactValue (literal : Text) : ℚ :=
  digitsValue (literal.takeWhile (· ≠ '.')) +
    digitsValue (fractionDigits literal) / 10 ^ (fractionDigits literal).length

/-- Digits in front of others count by the place at which they end. -/
theorem digitsValue_append (high low : Text) :
    digitsValue (high ++ low) = digitsValue high * 10 ^ low.length + digitsValue low := by
  have h : Nat.ofDigitChars 10 (high ++ low) 0 =
      10 ^ low.length * Nat.ofDigitChars 10 high 0 + Nat.ofDigitChars 10 low 0 := by
    rw [Nat.ofDigitChars_append, Nat.ofDigitChars_eq_ofDigitChars_zero]
  rw [Nat.mul_comm]
  exact h

theorem takeWhile_ne_point {digits : Text} (h : ∀ c ∈ digits, c.isDigit = true) (rest : Text) :
    (digits ++ rest).takeWhile (· ≠ '.') = digits ++ rest.takeWhile (· ≠ '.') := by
  apply List.takeWhile_append_of_pos
  intro c hc
  simp only [ne_eq, decide_eq_true_eq]
  rintro rfl
  exact absurd (h '.' hc) (by decide)

/-- The value of a row of digits is that of its number. -/
theorem exactValue_whole {digits : Text} (h : ∀ c ∈ digits, c.isDigit = true) :
    exactValue digits = digitsValue digits := by
  have hwhole := takeWhile_ne_point h []
  have hrest := dropWhile_ne_point h []
  rw [List.append_nil] at hwhole hrest
  rw [exactValue, fractionDigits, hwhole, hrest]
  simp [digitsValue]

/-- Behind the point, digits count as so many places. -/
theorem exactValue_pointed {whole : Text} (h : ∀ c ∈ whole, c.isDigit = true) (fraction : Text) :
    exactValue (whole ++ '.' :: fraction) =
      digitsValue whole + digitsValue fraction / 10 ^ fraction.length := by
  rw [exactValue, fractionDigits, takeWhile_ne_point h, dropWhile_ne_point h]
  simp

/-- The value is the row of all digits over a power of ten. -/
theorem IsLiteral.exactValue_eq {literal whole fraction : Text} (h : IsLiteral literal)
    (hparts : ofText? literal = some ⟨false, whole, fraction, 0⟩) :
    exactValue literal = digitsValue (whole ++ fraction) / 10 ^ fraction.length := by
  cases h with
  | whole hrow =>
      rw [ofText?_whole hrow] at hparts
      cases hparts
      rw [exactValue_whole hrow.2, List.append_nil, List.length_nil, pow_zero, div_one]
  | pointed hwhole hfraction =>
      rw [ofText?_pointed hwhole hfraction] at hparts
      cases hparts
      have hpower : (10 : ℚ) ^ fraction.length ≠ 0 := pow_ne_zero _ (by norm_num)
      rw [exactValue_pointed hwhole.2, digitsValue_append]
      push_cast
      rw [add_div, mul_div_cancel_right₀ _ hpower]

theorem cast_two_pow_sub {m n : Nat} (h : n ≤ m) : ((2 ^ m - 2 ^ n : Nat) : ℚ) = 2 ^ m - 2 ^ n := by
  rw [Nat.cast_sub (Nat.pow_le_pow_right Nat.zero_lt_two h), Nat.cast_pow, Nat.cast_pow, Nat.cast_ofNat]

/-- The bound on finite literals is one on their exact value. -/
theorem IsLiteral.finite_iff {literal : Text} (h : IsLiteral literal) :
    Finite literal ↔ exactValue literal < 2 ^ 1024 - 2 ^ 970 := by
  obtain ⟨whole, fraction, hparts, hdigits, hplaces⟩ := h.parts
  have hpower : (0 : ℚ) < 10 ^ fraction.length := pow_pos (by norm_num) _
  have hle : 970 ≤ 1024 := by decide
  rw [h.exactValue_eq hparts, div_lt_iff₀ hpower, ← cast_two_pow_sub hle, Finite, hdigits, hplaces]
  exact_mod_cast Iff.rfl

/-- What is read from a literal is the double that its exact value rounds to. -/
theorem IsLiteral.roundsTo {literal : Text} (h : IsLiteral literal) {x : Binary64}
    (hx : Numeral.read? literal = some x) : Binary64.RoundsTo (exactValue literal) x := by
  obtain ⟨whole, fraction, hparts, -⟩ := h.parts
  obtain ⟨numeral, hnumeral, rfl, hfinite⟩ := read?_eq_some_iff.1 hx
  rw [hparts] at hnumeral
  cases hnumeral
  have hmagnitude : (decimal ⟨false, whole, fraction, 0⟩).nearest =
      Binary64.nearest (digitsValue (whole ++ fraction) * Binary64.unitsPerOne)
        (10 ^ fraction.length) := by
    rw [decimal_plain, Decimal.nearest_neg]
  have hvalue : exactValue literal * Binary64.unitsPerOne =
      (digitsValue (whole ++ fraction) * Binary64.unitsPerOne : Nat) / (10 ^ fraction.length : Nat) := by
    rw [h.exactValue_eq hparts]
    push_cast
    exact div_mul_eq_mul_div _ _ _
  have hlt : (decimal ⟨false, whole, fraction, 0⟩).nearest < Binary64.infinity :=
    of_decide_eq_true hfinite
  rw [hmagnitude] at hlt
  simp only [value, hmagnitude]
  exact Binary64.roundsTo_nearest (Nat.pow_pos (by decide)) hvalue hlt

/-- A literal below the overflow is read as the double that its value rounds to, and no other one is
    read. -/
theorem read?_eq_some_iff_roundsTo {literal : Text} (h : IsLiteral literal) {x : Binary64} :
    read? literal = some x ↔
      exactValue literal < 2 ^ 1024 - 2 ^ 970 ∧ Binary64.RoundsTo (exactValue literal) x := by
  rw [← h.finite_iff, ← read?_isSome_iff h]
  constructor
  · intro hx
    exact ⟨⟨x, hx⟩, h.roundsTo hx⟩
  · rintro ⟨⟨y, hy⟩, hx⟩
    rw [hy, (h.roundsTo hy).unique hx]

-- A tie goes to the even neighbour, and any digit behind it decides.
example : read? "9007199254740993".toList = some (.ofBits 0x4340000000000000) := by decide +kernel

example : read? "9007199254740993.01".toList = some (.ofBits 0x4340000000000001) := by
  decide +kernel

/-- A literal that is not read is too large for any double. -/
theorem read?_eq_none_iff {literal : Text} (h : IsLiteral literal) :
    read? literal = none ↔ 2 ^ 1024 - 2 ^ 970 ≤ exactValue literal := by
  rw [← not_lt, ← h.finite_iff, ← read?_isSome_iff h, Option.eq_none_iff_forall_ne_some, not_exists]

/-- Literals of the same value are read alike. -/
theorem read?_eq_of_exactValue_eq {literal other : Text} (h : IsLiteral literal) (hother : IsLiteral other)
    (hvalue : exactValue other = exactValue literal) : read? other = read? literal := by
  apply Option.ext
  intro x
  rw [read?_eq_some_iff_roundsTo hother, read?_eq_some_iff_roundsTo h, hvalue]

/-! ### Zeros that change nothing -/

/-- More digits at either end of a row make a row. -/
theorem IsRow.append {digits : Text} (h : IsRow digits) {more : Text}
    (hmore : ∀ c ∈ more, c.isDigit = true) : IsRow (digits ++ more) ∧ IsRow (more ++ digits) := by
  refine ⟨⟨List.append_ne_nil_of_left_ne_nil h.1 _, ?_⟩, ⟨List.append_ne_nil_of_right_ne_nil _ h.1, ?_⟩⟩
  · exact List.forall_mem_append.2 ⟨h.2, hmore⟩
  · exact List.forall_mem_append.2 ⟨hmore, h.2⟩

/-- Zeros in front of a literal do not change what is read. -/
theorem read?_zeros_append {literal : Text} (h : IsLiteral literal) (k : Nat) :
    read? (List.replicate k '0' ++ literal) = read? literal := by
  have hzeros : ∀ c ∈ List.replicate k '0', c.isDigit = true := fun _ => isDigit_of_mem_zeros
  apply read?_eq_of_exactValue_eq h
  · cases h with
    | whole hrow => exact .whole (hrow.append hzeros).2
    | pointed hwhole hfraction =>
        rw [← List.append_assoc]
        exact .pointed (hwhole.append hzeros).2 hfraction
  · rw [exactValue, fractionDigits, takeWhile_ne_point hzeros, dropWhile_ne_point hzeros,
      digitsValue_zeros_append]
    rfl

/-- Zeros behind a literal with a point do not change what is read. -/
theorem read?_append_zeros {literal : Text} (h : IsLiteral literal) (hpoint : '.' ∈ literal) (k : Nat) :
    read? (literal ++ List.replicate k '0') = read? literal := by
  have hzeros : ∀ c ∈ List.replicate k '0', c.isDigit = true := fun _ => isDigit_of_mem_zeros
  cases h with
  | whole hrow => exact absurd (hrow.2 '.' hpoint) (by decide)
  | @pointed whole fraction hwhole hfraction =>
      have hpower : (10 : ℚ) ^ k ≠ 0 := pow_ne_zero k (by norm_num)
      rw [List.append_assoc, List.cons_append]
      apply read?_eq_of_exactValue_eq (.pointed hwhole hfraction)
      · exact .pointed hwhole (hfraction.append hzeros).1
      · rw [exactValue_pointed hwhole.2, exactValue_pointed hwhole.2, digitsValue_append_zeros,
          List.length_append, List.length_replicate, pow_add]
        push_cast
        rw [mul_div_mul_right _ _ hpower]

/-! ### From the text to the double -/

/-- The literal at the start of a text is scanned and read exactly. It is the longest one there, and a loop
    over the bytes counts its length. If there is one, it is refused exactly if its value is at least
    2^1024 - 2^970, and otherwise read as the finite double without a sign that the value rounds to. So
    what is read is a matter of the value: all literals of the same value are read alike, whatever zeros
    stand in front of them or at the end of their fractions. -/
theorem literal_scanned_and_read {text literal rest : Text} (h : takeLiteral text = (literal, rest)) :
    IsLongest literal text ∧ literalBytes (Text.bytes text) = Text.utf8Length literal ∧
      (literal ≠ [] →
        (read? literal = none ↔ 2 ^ 1024 - 2 ^ 970 ≤ exactValue literal) ∧
        (∀ x, read? literal = some x ↔
          exactValue literal < 2 ^ 1024 - 2 ^ 970 ∧ Binary64.RoundsTo (exactValue literal) x) ∧
        (∀ other, IsLiteral other → exactValue other = exactValue literal →
          read? other = read? literal) ∧
        ∀ k, read? (List.replicate k '0' ++ literal) = read? literal ∧
          ('.' ∈ literal → read? (literal ++ List.replicate k '0') = read? literal)) := by
  have hlongest := isLongest_takeLiteral text
  have hbytes := literalBytes_bytes text
  rw [h] at hlongest hbytes
  refine ⟨hlongest, hbytes, ?_⟩
  intro hne
  have hliteral := hlongest.isLiteral hne
  refine ⟨read?_eq_none_iff hliteral, fun x => read?_eq_some_iff_roundsTo hliteral, ?_, ?_⟩
  · intro other hother hvalue
    exact read?_eq_of_exactValue_eq hliteral hother hvalue
  · intro k
    exact ⟨read?_zeros_append hliteral k, fun hpoint => read?_append_zeros hliteral hpoint k⟩

/-- The bracket ends a literal of six bytes, which is read as `7.5` is. The number 2^1024 - 2^970 itself,
    written without a point, is refused. -/
theorem literal_scanned_and_read_padded :
    ∃ literal huge : Text, literal = "007.50".toList ∧ huge = Text.ofNat (2 ^ 1024 - 2 ^ 970) ∧
      takeLiteral "007.50)".toList = (literal, [')']) ∧ takeLiteral huge = (huge, []) ∧
      literal ≠ [] ∧ huge ≠ [] ∧ IsLongest literal "007.50)".toList ∧
      literalBytes (Text.bytes "007.50)".toList) = 6 ∧ exactValue literal = 15 / 2 ∧
      Binary64.RoundsTo (15 / 2) (.ofBits 0x401e000000000000) ∧
      read? "7.5".toList = read? literal ∧ read? huge = none := by
  have hcut : takeLiteral "007.50)".toList = ("007.50".toList, [')']) := by decide +kernel
  have hrow : IsRow (Text.ofNat (2 ^ 1024 - 2 ^ 970)) := isRow_ofNat _
  have hhuge : takeLiteral (Text.ofNat (2 ^ 1024 - 2 ^ 970)) =
      (Text.ofNat (2 ^ 1024 - 2 ^ 970), []) := by
    have h := takeLiteral_append_of_ends (.whole hrow) ends_nil
    rwa [List.append_nil] at h
  have hvalue : exactValue "007.50".toList = 15 / 2 := by
    have hwhole : digitsValue ['0', '0', '7'] = 7 := by decide
    have hfraction : digitsValue ['5', '0'] = 50 := by decide
    have h := @exactValue_pointed ['0', '0', '7'] (List.all_eq_true.1 (by decide)) ['5', '0']
    rw [hwhole, hfraction] at h
    exact h.trans (by norm_num)
  have hshort : exactValue "7.5".toList = 15 / 2 := by
    have hwhole : digitsValue ['7'] = 7 := by decide
    have hfraction : digitsValue ['5'] = 5 := by decide
    have h := @exactValue_pointed ['7'] (List.all_eq_true.1 (by decide)) ['5']
    rw [hwhole, hfraction] at h
    exact h.trans (by norm_num)
  have hthreshold : exactValue (Text.ofNat (2 ^ 1024 - 2 ^ 970)) = 2 ^ 1024 - 2 ^ 970 := by
    rw [exactValue_whole hrow.2, digitsValue_ofNat, cast_two_pow_sub (by decide)]
  obtain ⟨hlongest, hbytes, hread⟩ := literal_scanned_and_read hcut
  obtain ⟨-, hsome, hsame, -⟩ := hread (by decide)
  have hdouble : read? "007.50".toList = some (.ofBits 0x401e000000000000) := by decide +kernel
  refine ⟨_, _, rfl, rfl, hcut, hhuge, by decide, hrow.1, hlongest, ?_, hvalue, ?_, ?_, ?_⟩
  · exact hbytes.trans (by decide +kernel)
  · have h := ((hsome _).1 hdouble).2
    rwa [hvalue] at h
  · apply hsame
    · exact .pointed (isRow_singleton (by decide)) (isRow_singleton (by decide))
    · rw [hshort, hvalue]
  · obtain ⟨-, -, hrefused⟩ := literal_scanned_and_read hhuge
    apply (hrefused hrow.1).1.2
    rw [hthreshold]

end Numeral

end Calculator
