/-
Module: Calculator.Proofs.NumberText
Layer: Proofs
Purpose: Writing a number and reading it back. The text of a decimal is a plain literal whose digits
  denote the same value, the search for a shortest decimal ends in one that rounds to the double it
  started from, and so a finite double without a sign is read back from its text, bit for bit. On
  the other side a literal denotes a finite double exactly if its value lies below 2^1024 - 2^970.
Imports: Calculator.Binary64.Text, Calculator.Proofs.Literal, Calculator.Proofs.Rounding
Trusted boundary: none (fully proved)
Main exports: Numeral.Finite, Numeral.read?_isSome_iff, Binary64.isLiteral_toText,
  Binary64.read?_toText
-/
import Calculator.Binary64.Text
import Calculator.Proofs.Literal
import Calculator.Proofs.Rounding

namespace Calculator

/-! ### Digits of a natural number -/

namespace Numeral

/-- The digits of a natural number have its value. -/
theorem digitsValue_ofNat (n : Nat) : digitsValue (Text.ofNat n) = n :=
  Nat.ofDigitChars_ten_toDigits

/-- Zeros at the end multiply by ten. -/
theorem digitsValue_append_zeros (digits : Text) (k : Nat) :
    digitsValue (digits ++ List.replicate k '0') = digitsValue digits * 10 ^ k := by
  have h : Nat.ofDigitChars 10 (digits ++ List.replicate k '0') 0 =
      10 ^ k * Nat.ofDigitChars 10 digits 0 := by
    rw [Nat.ofDigitChars_append, Nat.ofDigitChars_replicate_zero]
  rw [Nat.mul_comm]
  exact h

/-- Zeros in front change nothing. -/
theorem digitsValue_zeros_append (k : Nat) (digits : Text) :
    digitsValue (List.replicate k '0' ++ digits) = digitsValue digits := by
  have h : Nat.ofDigitChars 10 (List.replicate k '0' ++ digits) 0 =
      Nat.ofDigitChars 10 digits 0 := by
    rw [Nat.ofDigitChars_append, Nat.ofDigitChars_replicate_zero, Nat.mul_zero]
  exact h

theorem isRow_ofNat (n : Nat) : IsRow (Text.ofNat n) :=
  ⟨Nat.toDigits_ne_nil, fun _ => Nat.isDigit_of_mem_toDigits (by decide) (by decide)⟩

theorem isDigit_of_mem_zeros {k : Nat} {c : Char} (h : c ∈ List.replicate k '0') :
    c.isDigit = true := by
  rw [(List.mem_replicate.1 h).2]
  rfl

/-! ### Values of literals -/

/-- Without an exponent, the digits are a whole number, with a place for each digit behind the
    point. -/
theorem decimal_plain (whole fraction : Text) :
    decimal ⟨false, whole, fraction, 0⟩ =
      ⟨digitsValue (whole ++ fraction), -(fraction.length : Int)⟩ := by
  have hbound : boundedExponent ⟨false, whole, fraction, 0⟩ = 0 := by
    simp only [boundedExponent]
    omega
  simp only [decimal, hbound, Int.zero_sub]

end Numeral

/-- A decimal with places behind the point is rounded as a fraction. -/
theorem Decimal.nearest_neg (coefficient places : Nat) :
    Decimal.nearest ⟨coefficient, -(places : Int)⟩ =
      Binary64.nearest (coefficient * Binary64.unitsPerOne) (10 ^ places) := by
  simp [Decimal.nearest]

namespace Numeral

/-- How many digits a literal has behind its point. -/
def places (literal : Text) : Nat := (literal.dropWhile (· ≠ '.')).length - 1

/-- The literal denotes a number below 2^1024 - 2^970, the least number whose nearest double is
    infinite. Its value is the row of all its digits over a power of ten. -/
def Finite (literal : Text) : Prop :=
  digitsValue (literal.filter Char.isDigit) < (2 ^ 1024 - 2 ^ 970) * 10 ^ places literal

theorem filter_isDigit {digits : Text} (h : ∀ c ∈ digits, c.isDigit = true) :
    digits.filter Char.isDigit = digits :=
  List.filter_eq_self.2 h

theorem dropWhile_ne_point {digits : Text} (h : ∀ c ∈ digits, c.isDigit = true) (rest : Text) :
    (digits ++ rest).dropWhile (· ≠ '.') = rest.dropWhile (· ≠ '.') := by
  apply List.dropWhile_append_of_pos
  intro c hc
  simp only [ne_eq, decide_eq_true_eq]
  rintro rfl
  exact absurd (h '.' hc) (by decide)

/-- A literal is its digits before and behind the point. -/
theorem IsLiteral.parts {literal : Text} (h : IsLiteral literal) :
    ∃ whole fraction, ofText? literal = some ⟨false, whole, fraction, 0⟩ ∧
      literal.filter Char.isDigit = whole ++ fraction ∧ places literal = fraction.length := by
  cases h with
  | whole hrow =>
      refine ⟨literal, [], ofText?_whole hrow, ?_, ?_⟩
      · rw [filter_isDigit hrow.2, List.append_nil]
      · have := dropWhile_ne_point hrow.2 []
        rw [List.append_nil] at this
        rw [places, this]
        rfl
  | @pointed whole fraction hwhole hfraction =>
      refine ⟨whole, fraction, ofText?_pointed hwhole hfraction, ?_, ?_⟩
      · rw [List.filter_append, filter_isDigit hwhole.2, List.filter_cons_of_neg (by decide),
          filter_isDigit hfraction.2]
      · rw [places, dropWhile_ne_point hwhole.2]
        simp

/-- A text is read if it is a numeral whose value is finite. -/
theorem read?_eq_some_iff {literal : Text} {x : Binary64} :
    read? literal = some x ↔
      ∃ numeral, ofText? literal = some numeral ∧ numeral.value = x ∧ x.isFinite = true := by
  unfold read?
  cases hnumeral : ofText? literal with
  | none => simp
  | some numeral =>
      by_cases hfinite : numeral.value.isFinite = true
      · simp only [hfinite, if_true, Option.some.injEq]
        constructor
        · rintro rfl
          exact ⟨numeral, rfl, rfl, hfinite⟩
        · rintro ⟨_, rfl, rfl, -⟩
          rfl
      · simp only [hfinite, Option.some.injEq]
        constructor
        · intro h
          cases h
        · rintro ⟨_, rfl, rfl, hx⟩
          exact absurd hx hfinite

/-- What is read from a plain literal is finite and has no sign. -/
theorem IsLiteral.read? {literal : Text} {x : Binary64} (h : IsLiteral literal)
    (hx : read? literal = some x) : x.isFinite = true ∧ x.negative = false := by
  obtain ⟨whole, fraction, hparts, -⟩ := h.parts
  obtain ⟨numeral, hnumeral, rfl, hfinite⟩ := read?_eq_some_iff.1 hx
  rw [hparts] at hnumeral
  cases hnumeral
  exact ⟨hfinite, rfl⟩

/-- A plain literal is read as a finite double exactly below the overflow threshold. -/
theorem read?_isSome_iff {literal : Text} (h : IsLiteral literal) :
    (∃ x, read? literal = some x) ↔ Finite literal := by
  obtain ⟨whole, fraction, hparts, hdigits, hplaces⟩ := h.parts
  have hvalue : (∃ x, Numeral.read? literal = some x) ↔
      (decimal ⟨false, whole, fraction, 0⟩).nearest < Binary64.infinity := by
    simp only [read?_eq_some_iff, hparts]
    constructor
    · rintro ⟨x, numeral, hnumeral, rfl, hfinite⟩
      cases hnumeral
      exact of_decide_eq_true hfinite
    · intro hlt
      exact ⟨_, _, rfl, rfl, decide_eq_true hlt⟩
  rw [hvalue, decimal_plain, Decimal.nearest_neg,
    Binary64.nearest_lt_infinity_iff (Nat.pow_pos (by decide)), Finite, hdigits, hplaces]
  -- The threshold in units is the threshold times the units of one.
  have hthreshold : (2 ^ 54 - 1) * 2 ^ 2044 = (2 ^ 1024 - 2 ^ 970) * Binary64.unitsPerOne := by
    decide +kernel
  rw [hthreshold, ← Nat.mul_assoc, Nat.mul_comm (10 ^ _)]
  exact Nat.mul_lt_mul_right (by decide +kernel)

end Numeral

/-! ### The text of a decimal -/

namespace Decimal

open Numeral (IsRow IsLiteral ofText?)

/-- With a negative exponent the digits, padded with zeros, are cut in two rows. -/
theorem positional_pointed (coefficient : Nat) {places : Nat} (hplaces : 0 < places) :
    ∃ whole fraction, IsRow whole ∧ IsRow fraction ∧ fraction.length = places ∧
      Numeral.digitsValue (whole ++ fraction) = coefficient ∧
      positional ⟨coefficient, -(places : Int)⟩ = whole ++ '.' :: fraction := by
  have hrow := Numeral.isRow_ofNat coefficient
  have hdigits := List.length_pos_iff.2 hrow.1
  generalize hpad : List.replicate (places + 1 - (Text.ofNat coefficient).length) '0' ++
    Text.ofNat coefficient = padded
  have hlength : places < padded.length := by
    rw [← hpad, List.length_append, List.length_replicate]
    omega
  have hall : ∀ c ∈ padded, c.isDigit = true := by
    intro c hc
    rw [← hpad] at hc
    rcases List.mem_append.1 hc with hc | hc
    · exact Numeral.isDigit_of_mem_zeros hc
    · exact hrow.2 c hc
  have hdrop : (padded.drop (padded.length - places)).length = places := by
    rw [List.length_drop]
    omega
  refine ⟨padded.take (padded.length - places), padded.drop (padded.length - places), ?_, ?_, hdrop,
    ?_, ?_⟩
  · refine ⟨?_, fun c hc => hall c (List.mem_of_mem_take hc)⟩
    rw [← List.length_pos_iff, List.length_take]
    omega
  · refine ⟨?_, fun c hc => hall c (List.mem_of_mem_drop hc)⟩
    rw [← List.length_pos_iff, hdrop]
    exact hplaces
  · rw [List.take_append_drop, ← hpad, Numeral.digitsValue_zeros_append, Numeral.digitsValue_ofNat]
  · simp only [positional, Int.neg_neg, Int.toNat_natCast, hpad, hplaces.ne', if_false]

/-- The text of a decimal is a literal, and it is read with the value of the decimal. -/
theorem ofText?_positional (d : Decimal) :
    IsLiteral d.positional ∧ ∃ numeral, ofText? d.positional = some numeral ∧
      numeral.negative = false ∧ numeral.decimal.nearest = d.nearest := by
  obtain ⟨coefficient, exponent⟩ := d
  rcases Int.lt_or_le exponent 0 with hexp | hexp
  · obtain ⟨k, hk⟩ := Int.eq_ofNat_of_zero_le (Int.neg_nonneg_of_nonpos hexp.le)
    obtain rfl : exponent = -(k : Int) := by omega
    have hplaces : 0 < k := by omega
    obtain ⟨whole, fraction, hwhole, hfraction, hlength, hvalue, htext⟩ :=
      positional_pointed coefficient hplaces
    rw [htext]
    refine ⟨.pointed hwhole hfraction, _, Numeral.ofText?_pointed hwhole hfraction, rfl, ?_⟩
    rw [Numeral.decimal_plain, hvalue, hlength]
  · obtain ⟨k, rfl⟩ := Int.eq_ofNat_of_zero_le hexp
    have hrow : IsRow (Text.ofNat coefficient ++ List.replicate k '0') := by
      refine ⟨?_, ?_⟩
      · exact List.append_ne_nil_of_left_ne_nil (Numeral.isRow_ofNat coefficient).1 _
      · intro c hc
        rcases List.mem_append.1 hc with hc | hc
        · exact (Numeral.isRow_ofNat coefficient).2 c hc
        · exact Numeral.isDigit_of_mem_zeros hc
    have htext : positional ⟨coefficient, (k : Int)⟩ =
        Text.ofNat coefficient ++ List.replicate k '0' := by
      simp [positional]
    rw [htext]
    refine ⟨.whole hrow, _, Numeral.ofText?_whole hrow, rfl, ?_⟩
    rw [Numeral.decimal_plain, List.append_nil, Numeral.digitsValue_append_zeros,
      Numeral.digitsValue_ofNat]
    simp [nearest]

/-! ### The shortest decimal -/

/-- The finest grid holds the double itself. -/
theorem nearest_fineUnits {m : Nat} (hm : m < Binary64.infinity) :
    nearest ⟨fineUnits m, -1074⟩ = m := by
  have hscale : fineUnits m * Binary64.unitsPerOne = Binary64.unitsOf m * 10 ^ 1074 := by
    unfold fineUnits Binary64.unitsPerOne
    generalize 1074 = k
    rw [Nat.mul_assoc, Nat.pow_eq, Nat.pow_eq, ← Nat.mul_pow]
  have hpos (k : Nat) : 0 < 10 ^ k := Nat.pow_pos (by decide)
  have h := nearest_neg (fineUnits m) 1074
  rw [hscale, Binary64.nearest_unitsOf hm (hpos 1074)] at h
  exact h

/-- The search for a shorter decimal never leaves those that round to the double. -/
theorem nearest_searchFrom {m : Nat} (hm : m < Binary64.infinity) (place : Nat) :
    (searchFrom m (fineUnits m) place).nearest = m := by
  induction place with
  | zero => exact nearest_fineUnits hm
  | succ place ih =>
      rw [searchFrom]
      split
      · rename_i d hfound
        simpa using List.find?_some hfound
      · exact ih

/-- The shortest decimal of a finite magnitude rounds to it. -/
theorem nearest_shortest {m : Nat} (hm : m < Binary64.infinity) : (shortest m).nearest = m := by
  unfold shortest
  split
  · rename_i hzero
    subst hzero
    decide +kernel
  · exact nearest_searchFrom hm _

end Decimal

/-! ### The text of a double -/

namespace Binary64

/-- The text of a finite number without a sign is that of its shortest decimal. -/
theorem toText_of_isFinite {x : Binary64} (hfinite : x.isFinite = true) (hsign : x.negative = false) :
    x.toText = (Decimal.shortest x.magnitude).positional := by
  have hlt : x.magnitude < infinity := of_decide_eq_true hfinite
  have hnan : x.isNaN = false := decide_eq_false (Nat.not_lt.2 hlt.le)
  simp [toText, magnitudeText, hnan, hsign, hlt.ne]

/-- The text of a finite number without a sign is a literal. -/
theorem isLiteral_toText {x : Binary64} (hfinite : x.isFinite = true) (hsign : x.negative = false) :
    Numeral.IsLiteral x.toText := by
  rw [toText_of_isFinite hfinite hsign]
  exact (Decimal.ofText?_positional _).1

/-- A finite double without a sign is read back from its text. -/
theorem read?_toText {x : Binary64} (hfinite : x.isFinite = true) (hsign : x.negative = false) :
    Numeral.read? x.toText = some x := by
  obtain ⟨-, numeral, hnumeral, hnegative, hnearest⟩ :=
    Decimal.ofText?_positional (Decimal.shortest x.magnitude)
  rw [Decimal.nearest_shortest (of_decide_eq_true hfinite)] at hnearest
  rw [toText_of_isFinite hfinite hsign]
  refine Numeral.read?_eq_some_iff.2 ⟨numeral, hnumeral, ?_, hfinite⟩
  obtain ⟨negative, magnitude, bounded⟩ := x
  cases hsign
  simp only [Numeral.value, hnegative, hnearest]

end Binary64

end Calculator
