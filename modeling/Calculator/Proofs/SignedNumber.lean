/-
Module: Calculator.Proofs.SignedNumber
Layer: Proofs
Purpose: The two ways to write a number, for numbers of either sign. A minus sign in front of a literal
  turns the sign of what is read, so a finite double is read back from its text, and from its LaTeX form
  up to the sign of a zero, which LaTeX leaves out. A whole number below 10^18 is written in LaTeX as
  the 64-bit integer to which it converts, and the conversion is exact: nothing is cut off, and the ends
  of the range are not reached. Every other finite number has the same text in LaTeX as elsewhere.
Imports: Calculator.Proofs.Typesetting
Trusted boundary: none (fully proved)
Main exports: Binary64.abs, Binary64.neg, Binary64.units, Numeral.read?_minus, Binary64.toText_eq,
  Binary64.latex_eq, Binary64.read?_toText_of_isFinite, Binary64.read?_latex_of_isFinite,
  Binary64.IsSmallWhole.exists_integer, Expr.number_forms_denote_same
-/
import Calculator.Proofs.Typesetting

namespace Calculator

namespace Binary64

/-- The number without its sign. -/
def abs (x : Binary64) : Binary64 := { x with negative := false }

/-- The number with the other sign. -/
def neg (x : Binary64) : Binary64 := { x with negative := !x.negative }

/-- Whether a number is less than zero; the negative zero is not. -/
def belowZero (x : Binary64) : Bool := x.negative && x.magnitude ≠ 0

/-- The exact value of a finite number in units of 2^-1074. -/
def units (x : Binary64) : Int :=
  if x.negative then -(unitsOf x.magnitude : Int) else unitsOf x.magnitude

theorem abs_of_not_negative {x : Binary64} (h : x.negative = false) : x.abs = x := by
  obtain ⟨negative, magnitude, bounded⟩ := x
  cases h
  rfl

/-- A number with a sign is that without it, turned. -/
theorem neg_abs_of_negative {x : Binary64} (h : x.negative = true) : x.abs.neg = x := by
  obtain ⟨negative, magnitude, bounded⟩ := x
  cases h
  rfl

theorem negative_of_belowZero {x : Binary64} (h : x.belowZero = true) : x.negative = true :=
  ((Bool.and_eq_true _ _).mp h).1

/-- What is not less than zero has no sign or is a zero. -/
theorem of_not_belowZero {x : Binary64} (h : x.belowZero = false) :
    x.negative = false ∨ x.magnitude = 0 := by
  simpa [belowZero, Classical.or_iff_not_imp_left] using h

end Binary64

/-! ### Literals with a minus sign -/

namespace Numeral

/-- A literal has no sign to take. -/
theorem takeSign_of_isLiteral {literal : Text} (h : IsLiteral literal) :
    takeSign literal = (false, literal) := by
  obtain ⟨c, rest, rfl, hdigit⟩ := h.head
  exact takeSign_of_isDigit rest hdigit

/-- A minus sign in front of a literal is all that changes the numeral. -/
theorem ofText?_minus {literal : Text} (h : IsLiteral literal) :
    ofText? ('-' :: literal) =
      (ofText? literal).map fun numeral => { numeral with negative := true } := by
  have hminus : takeSign ('-' :: literal) = (true, literal) := rfl
  simp only [ofText?, hminus, takeSign_of_isLiteral h]
  split
  · rfl
  · rw [Option.map_map]
    rfl

/-- A minus sign in front of a plain literal turns the sign of what is read. -/
theorem read?_minus {literal : Text} (h : IsLiteral literal) :
    read? ('-' :: literal) = (read? literal).map Binary64.neg := by
  obtain ⟨whole, fraction, hparts, -⟩ := h.parts
  simp only [read?, ofText?_minus h, hparts, Option.map_some]
  -- The sign decides neither the magnitude nor whether it is finite.
  change (if (value ⟨false, whole, fraction, 0⟩).isFinite = true then _ else _) = _
  split
  · rfl
  · rfl

end Numeral

/-! ### Texts of either sign -/

namespace Binary64

theorem isNaN_of_isFinite {x : Binary64} (h : x.isFinite = true) : x.isNaN = false :=
  decide_eq_false (Nat.not_lt.2 (of_decide_eq_true h).le)

/-- A sign in the text stands in front of the text of the number without it. -/
theorem toText_eq {x : Binary64} (h : x.isNaN = false) :
    x.toText = if x.negative then '-' :: x.abs.toText else x.abs.toText := by
  have habs : x.abs.toText = magnitudeText x.magnitude := by
    have hnan : x.abs.isNaN = false := h
    simp only [toText, hnan]
    rfl
  rw [habs, toText, h]
  rfl

/-- Every finite double is read back from its text, bit for bit. -/
theorem read?_toText_of_isFinite {x : Binary64} (h : x.isFinite = true) :
    Numeral.read? x.toText = some x := by
  have hread : Numeral.read? x.abs.toText = some x.abs := read?_toText h rfl
  rw [toText_eq (isNaN_of_isFinite h)]
  cases hsign : x.negative with
  | true =>
      have hliteral : Numeral.IsLiteral x.abs.toText := isLiteral_toText h rfl
      rw [if_pos rfl, Numeral.read?_minus hliteral, hread, Option.map_some, neg_abs_of_negative hsign]
  | false => rw [if_neg Bool.false_ne_true, hread, abs_of_not_negative hsign]

/-- Only the magnitude zero has no units. -/
theorem unitsOf_eq_zero_iff {magnitude : Nat} : unitsOf magnitude = 0 ↔ magnitude = 0 := by
  unfold unitsOf
  split
  · exact Iff.rfl
  · rename_i hlarge
    have hpower : 0 < Nat.pow 2 (magnitude / fractions - 1) := Nat.two_pow_pos _
    have hfractions : 0 < fractions := by decide
    constructor
    · intro hzero
      rcases Nat.mul_eq_zero.1 hzero with h | h
      · omega
      · omega
    · intro hzero
      omega

/-- Only zero is written as the digit zero. -/
theorem smallWhole?_eq_zero_iff {magnitude : Nat} : smallWhole? magnitude = some 0 ↔ magnitude = 0 := by
  constructor
  · intro h
    obtain ⟨-, hunits⟩ := unitsOf_of_smallWhole? h
    rw [Nat.zero_mul] at hunits
    exact unitsOf_eq_zero_iff.1 hunits
  · rintro rfl
    decide +kernel

/-- In LaTeX, too, only numbers less than zero have a sign, in front of the form that they have without
    it. -/
theorem latex_eq {x : Binary64} (h : x.isFinite = true) :
    x.latex = if x.belowZero then '-' :: x.abs.latex else x.abs.latex := by
  cases hwhole : smallWhole? x.magnitude with
  | some n =>
      have habs : x.abs.latex = Text.ofNat n := by simp [latex, abs, hwhole]
      have hzero : n = 0 ↔ x.magnitude = 0 := by
        rw [← @smallWhole?_eq_zero_iff x.magnitude, hwhole, Option.some.injEq]
      have hdecide : decide (n ≠ 0) = decide (x.magnitude ≠ 0) := decide_eq_decide.2 hzero.not
      rw [habs, belowZero, ← hdecide]
      simp only [latex, hwhole]
  | none =>
      have hne : x.magnitude ≠ 0 := by
        intro hzero
        rw [smallWhole?_eq_zero_iff.2 hzero] at hwhole
        cases hwhole
      have hlt : x.magnitude < infinity := of_decide_eq_true h
      have hnan := isNaN_of_isFinite h
      have habs : x.abs.latex = x.abs.toText := by
        have hnan' : x.abs.isNaN = false := hnan
        simp only [latex, abs, hwhole, hlt.ne] at hnan' ⊢
        simp [hnan']
      have htext : x.latex = x.toText := by simp [latex, hwhole, hnan, hlt.ne]
      have hbelow : x.belowZero = x.negative := by simp [belowZero, hne]
      rw [htext, habs, toText_eq hnan, hbelow]

/-- Every finite double is read back from its LaTeX form, and a zero without its sign. -/
theorem read?_latex_of_isFinite {x : Binary64} (h : x.isFinite = true) :
    Numeral.read? x.latex = some (if x.belowZero then x else x.abs) := by
  obtain ⟨hliteral, hread⟩ : Numeral.IsLiteral x.abs.latex ∧
    Numeral.read? x.abs.latex = some x.abs := read?_latex h rfl
  rw [latex_eq h]
  cases hbelow : x.belowZero with
  | true =>
      rw [if_pos rfl, if_pos rfl, Numeral.read?_minus hliteral, hread, Option.map_some,
        neg_abs_of_negative (negative_of_belowZero hbelow)]
  | false => rw [if_neg Bool.false_ne_true, if_neg Bool.false_ne_true, hread]

theorem same_self {x : Binary64} (h : x.isFinite = true) : x.same x = true := by
  simp [same, isNaN_of_isFinite h]

/-- A zero without its sign is still an equal number. -/
theorem same_latexValue {x : Binary64} (h : x.isFinite = true) :
    (if x.belowZero then x else x.abs).same x = true := by
  cases hbelow : x.belowZero with
  | true => exact same_self h
  | false =>
      rcases of_not_belowZero hbelow with hsign | hzero
      · rw [if_neg Bool.false_ne_true, abs_of_not_negative hsign]
        exact same_self h
      · have hnan := isNaN_of_isFinite h
        have hnan' : x.abs.isNaN = false := hnan
        have hzero' : x.abs.magnitude = 0 := hzero
        simp [same, hnan, hnan', hzero, hzero']

/-! ### Whole numbers as 64-bit integers -/

/-- The whole part of a finite number, cut off towards zero. -/
def truncate (x : Binary64) : Int := x.units.tdiv unitsPerOne

/-- The 64-bit integer to which an integer converts: the nearest end of the range if it lies outside. -/
def saturate (z : Int) : Int := max (-0x8000000000000000) (min 0x7fffffffffffffff z)

/-- The digits of an integer, behind a minus sign if it is less than zero. -/
def integerText : Int → Text
  | .ofNat n => Text.ofNat n
  | .negSucc n => '-' :: Text.ofNat (n + 1)

theorem integerText_natCast (n : Nat) : integerText n = Text.ofNat n := rfl

/-- The digits of an integer below zero stand behind a minus sign, and zero has none. -/
theorem integerText_neg (n : Nat) :
    integerText (-n) = if n = 0 then Text.ofNat n else '-' :: Text.ofNat n := by
  cases n with
  | zero => rfl
  | succ n => rfl

/-- The number is whole and less than 10^18, its sign apart. -/
structure IsSmallWhole (x : Binary64) : Prop where
  whole : (unitsPerOne : Int) ∣ x.units
  small : x.units.natAbs < 10 ^ 18 * unitsPerOne

/-- Without its sign, the exact value is that of the magnitude. -/
theorem natAbs_units (x : Binary64) : x.units.natAbs = unitsOf x.magnitude := by
  unfold units
  split
  · rw [Int.natAbs_neg, Int.natAbs_natCast]
  · rw [Int.natAbs_natCast]

theorem unitsPerOne_pos : 0 < unitsPerOne := by
  unfold unitsPerOne
  generalize 1074 = k
  exact Nat.two_pow_pos k

/-- A small whole magnitude counts as many ones. -/
theorem smallWhole?_eq_some_iff {x : Binary64} (h : x.isFinite = true) {n : Nat} :
    smallWhole? x.magnitude = some n ↔ unitsOf x.magnitude = n * unitsPerOne ∧ n < 10 ^ 18 := by
  have hlt : x.magnitude < infinity := of_decide_eq_true h
  have hpos := unitsPerOne_pos
  simp only [smallWhole?, hlt, decide_true, Bool.true_and, Bool.and_eq_true, decide_eq_true_eq]
  generalize unitsOf x.magnitude = units, unitsPerOne = one at hpos ⊢
  constructor
  · intro hwhole
    split at hwhole
    · rename_i hsmall
      cases hwhole
      have hdvd := Nat.dvd_of_mod_eq_zero hsmall.1
      exact ⟨(Nat.div_mul_cancel hdvd).symm, (Nat.div_lt_iff_lt_mul hpos).2 hsmall.2⟩
    · cases hwhole
  · rintro ⟨rfl, hn⟩
    rw [if_pos ⟨Nat.mul_mod_left n _, Nat.mul_lt_mul_of_pos_right hn hpos⟩, Nat.mul_div_cancel n hpos]

/-- The numbers that LaTeX writes as integers are the small whole ones. -/
theorem isSmallWhole_iff {x : Binary64} (h : x.isFinite = true) :
    x.IsSmallWhole ↔ ∃ n, smallWhole? x.magnitude = some n := by
  simp only [smallWhole?_eq_some_iff h]
  have hpos := unitsPerOne_pos
  constructor
  · rintro ⟨hwhole, hsmall⟩
    rw [natAbs_units] at hsmall
    rw [← Int.dvd_natAbs, natAbs_units, Int.natCast_dvd_natCast] at hwhole
    obtain ⟨n, hn⟩ := hwhole
    rw [Nat.mul_comm] at hn
    rw [hn] at hsmall
    exact ⟨n, hn, Nat.lt_of_mul_lt_mul_right hsmall⟩
  · rintro ⟨n, hn, hlt⟩
    constructor
    · rw [← Int.dvd_natAbs, natAbs_units, Int.natCast_dvd_natCast, hn]
      exact Nat.dvd_mul_left _ _
    · rw [natAbs_units, hn]
      exact Nat.mul_lt_mul_of_pos_right hlt hpos

/-- A small whole number is some integer below 10^18 on either side of zero, and LaTeX has the digits of
    this integer. -/
theorem IsSmallWhole.exists_integer {x : Binary64} (h : x.IsSmallWhole) (hfinite : x.isFinite = true) :
    ∃ z : Int, x.units = z * unitsPerOne ∧ z.natAbs < 10 ^ 18 ∧ x.latex = integerText z := by
  obtain ⟨n, hwhole⟩ := (isSmallWhole_iff hfinite).1 h
  obtain ⟨hunits, hn⟩ := (smallWhole?_eq_some_iff hfinite).1 hwhole
  cases hsign : x.negative with
  | false =>
      refine ⟨n, ?_, by omega, ?_⟩
      · rw [units, hsign, if_neg Bool.false_ne_true, hunits, Int.natCast_mul]
      · rw [integerText_natCast]
        simp [latex, hwhole, hsign]
  | true =>
      refine ⟨-n, ?_, by omega, ?_⟩
      · rw [units, hsign, if_pos rfl, hunits, Int.natCast_mul, Int.neg_mul]
      · rw [integerText_neg]
        simp [latex, hwhole, hsign]

/-- Small integers are far inside the range of 64 bits. -/
theorem saturate_eq_self {z : Int} (h : z.natAbs < 10 ^ 18) : saturate z = z := by
  unfold saturate
  omega

/-- Nothing is cut off a whole number. -/
theorem truncate_of_units {x : Binary64} {z : Int} (h : x.units = z * unitsPerOne) : x.truncate = z := by
  rw [truncate, h]
  exact Int.mul_tdiv_cancel z (Int.natCast_ne_zero.2 unitsPerOne_pos.ne')

/-- Where no small whole number is written, LaTeX has the usual text. -/
theorem latex_eq_toText {x : Binary64} (h : x.isFinite = true) (hother : ¬ x.IsSmallWhole) :
    x.latex = x.toText := by
  have hnone : smallWhole? x.magnitude = none := by
    rw [Option.eq_none_iff_forall_ne_some]
    intro n hn
    exact hother ((isSmallWhole_iff h).2 ⟨n, hn⟩)
  have hlt : x.magnitude < infinity := of_decide_eq_true h
  simp [latex, hnone, isNaN_of_isFinite h, hlt.ne]

end Binary64

namespace Expr

open Binary64 (saturate integerText)

/-- As an expression, a finite number is read back from its canonical form and from its LaTeX form as an
    equal number. A small whole number is written in LaTeX as the 64-bit integer that it converts to, and
    the conversion keeps its value; any other number is written there as in the canonical form. -/
theorem number_forms_denote_same {x : Binary64} (h : x.isFinite = true) :
    (∃ y, Numeral.read? (number x).canonical = some y ∧ y.same x = true) ∧
      (∃ y, Numeral.read? (number x).latex = some y ∧ y.same x = true) ∧
      (x.IsSmallWhole → saturate x.truncate = x.truncate ∧
        x.truncate * Binary64.unitsPerOne = x.units ∧
        (number x).latex = integerText (saturate x.truncate)) ∧
      (¬ x.IsSmallWhole → (number x).latex = (number x).canonical) := by
  refine ⟨⟨x, Binary64.read?_toText_of_isFinite h, Binary64.same_self h⟩,
    ⟨_, Binary64.read?_latex_of_isFinite h, Binary64.same_latexValue h⟩, ?_, ?_⟩
  · intro hsmall
    obtain ⟨z, hunits, hz, hlatex⟩ := hsmall.exists_integer h
    rw [Binary64.truncate_of_units hunits, Binary64.saturate_eq_self hz]
    exact ⟨rfl, hunits.symm, hlatex⟩
  · intro hother
    exact Binary64.latex_eq_toText h hother

/-- The power 2^59 has more digits than are needed to read it back: LaTeX has all of them, the canonical
    form has zeros for the last two. -/
theorem number_forms_denote_same_power :
    ∃ x : Binary64, x = .ofBits 0xc3a0000000000000 ∧ x.isFinite = true ∧
      (number x).latex = "-576460752303423488".toList ∧
      (number x).canonical = "-576460752303423500".toList ∧
      (∃ y, Numeral.read? (number x).canonical = some y ∧ y.same x = true) ∧
      ∃ y, Numeral.read? (number x).latex = some y ∧ y.same x = true := by
  have hfinite : (Binary64.ofBits 0xc3a0000000000000).isFinite = true := by decide +kernel
  obtain ⟨hcanonical, hlatex, -⟩ := number_forms_denote_same hfinite
  exact ⟨_, rfl, hfinite, by decide +kernel, by decide +kernel, hcanonical, hlatex⟩

end Expr

end Calculator
