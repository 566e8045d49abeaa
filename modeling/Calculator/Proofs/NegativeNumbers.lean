/-
Module: Calculator.Proofs.NegativeNumbers
Layer: Proofs
Purpose: The LaTeX form of an expression with numbers of either sign. It always is a formula with one
  reading, in which a sign in front of the base of a power belongs to the power. Everywhere else a
  number below zero is read as what it is: in a sum, a product, a fraction or an exponent. So the form
  keeps the value of the expression if no number below zero is the base of a power, and otherwise there
  is an interpretation in which the value is lost.
Imports: Calculator.Proofs.SignedNumber, Mathlib.Data.Rat.Floor, Mathlib.Tactic.NormNum
Trusted boundary: none (fully proved)
Main exports: Latex.Reading.meaning, Interpretation.Negates, Interpretation.rational, Expr.written,
  Expr.PlainBases, Expr.meaning_written, Expr.exists_signed_reads, Expr.latex_reads_written
-/
import Calculator.Proofs.SignedNumber
import Mathlib.Data.Rat.Floor
import Mathlib.Tactic.NormNum

namespace Calculator

open Latex (Symbol Reading signed)

/-! ### Interpretations with negatives -/

/-- The value of a reading, where `neg` is what a minus sign stands for. -/
def Latex.Reading.meaning {α : Type*} (I : Interpretation α) (neg : α → α) : Reading → α
  | number x => I.number x
  | minus operand => neg (operand.meaning I neg)
  | binary left op right => I.apply op (left.meaning I neg) (right.meaning I neg)

/-- Chains may be grouped to the left, and a minus sign turns the sign of a number, zero being its own
    negative. These are the only laws of fields that are used. No other law of negatives is needed, not
    even that a number and its negative add up to zero, and none of division and powers. -/
structure Interpretation.Negates {α : Type*} (I : Interpretation α) (neg : α → α) : Prop
    extends I.Associates where
  number_neg (x : Binary64) : x.isFinite = true → I.number x.neg = neg (I.number x)
  neg_zero : neg (I.number .zero) = I.number .zero

namespace Interpretation.Negates

variable {α : Type*} {I : Interpretation α} {neg : α → α} {x : Binary64}

/-- With its sign in front, a number below zero has its own value. -/
theorem neg_number_abs (hI : I.Negates neg) (hfinite : x.isFinite = true)
    (h : x.belowZero = true) : neg (I.number x.abs) = I.number x := by
  rw [← hI.number_neg x.abs hfinite, Binary64.neg_abs_of_negative (Binary64.negative_of_belowZero h)]

/-- The only sign that LaTeX leaves out is that of a zero. -/
theorem number_abs (hI : I.Negates neg) (h : x.belowZero = false) :
    I.number x.abs = I.number x := by
  cases hsign : x.negative with
  | false => rw [Binary64.abs_of_not_negative hsign]
  | true =>
      obtain ⟨negative, magnitude, bounded⟩ := x
      cases hsign
      obtain rfl : magnitude = 0 := (Binary64.of_not_belowZero h).resolve_left (by simp)
      have hneg := hI.number_neg .zero (by decide)
      rw [hI.neg_zero] at hneg
      exact hneg.symm

end Interpretation.Negates

/-! ### The symbols of numbers of either sign -/

/-- A minus sign and a literal are two symbols, with or without a space between them. -/
theorem Latex.Writes.minus {literal : Text} (h : Numeral.IsLiteral literal) :
    Latex.Writes ('-' :: literal) [.sign .minus, .number literal] := by
  intro rest hrest
  have hsign : Latex.symbols? ((Symbol.sign .minus).text ++ (literal ++ rest)) =
      (Latex.symbols? (literal ++ rest)).map (Symbol.sign .minus :: ·) :=
    Latex.symbols?_text_append trivial
  rw [Latex.Writes.number h rest hrest, Option.map_map] at hsign
  exact hsign

namespace Binary64

/-- The symbols with which a number is written in LaTeX. -/
def signedSymbols (x : Binary64) : List Symbol :=
  if x.belowZero then [.sign .minus, .number x.abs.latex] else [.number x.abs.latex]

/-- A reading behind the sign of the number, if LaTeX gives it one. -/
def behindSign (x : Binary64) (r : Reading) : Reading := if x.belowZero then .minus r else r

theorem meaning_behindSign {α : Type*} (I : Interpretation α) (neg : α → α) (x : Binary64)
    (r : Reading) :
    (x.behindSign r).meaning I neg = if x.belowZero then neg (r.meaning I neg) else r.meaning I neg :=
  apply_ite (Reading.meaning I neg) _ _ _

/-- Without its sign, every finite number is written as a literal and read back from it. -/
theorem read?_latex_abs {x : Binary64} (h : x.isFinite = true) :
    Numeral.IsLiteral x.abs.latex ∧ Numeral.read? x.abs.latex = some x.abs :=
  read?_latex h rfl

/-- A number of either sign is scanned as its symbols. -/
theorem writes_signedSymbols {x : Binary64} (h : x.isFinite = true) :
    Latex.Writes x.latex x.signedSymbols := by
  obtain ⟨hliteral, -⟩ := read?_latex_abs h
  rw [latex_eq h, signedSymbols]
  cases x.belowZero with
  | true => exact .minus hliteral
  | false => exact .number hliteral

end Binary64

/-! ### What is written

The form of a number below zero starts with a sign. In the grammar it is a factor and no base, so it can
stand wherever operands stand without brackets, but not before an exponent. -/

namespace Expr

/-- The expression as its LaTeX form shows it, before chains are grouped: a number below zero stands
    behind a sign, and so does a power with such a number as its base. -/
def written : Expr → Reading
  | number x => x.behindSign (.number x.abs)
  | binary (number x) .pow right => x.behindSign (.binary (.number x.abs) .pow right.written)
  | binary left op right => .binary left.written op right.written

/-- No number below zero is the base of a power. -/
def PlainBases : Expr → Prop
  | number _ => True
  | binary (number x) .pow right => x.belowZero = false ∧ right.PlainBases
  | binary left _ right => left.PlainBases ∧ right.PlainBases

/-- With plain bases, what is written has the value of the expression. -/
theorem meaning_written {α : Type*} {I : Interpretation α} {neg : α → α} (hI : I.Negates neg)
    {t : Expr} (hfinite : t.All fun x => x.isFinite = true) (h : t.PlainBases) :
    t.written.meaning I neg = t.meaning I := by
  induction t using written.induct with
  | case1 x =>
      rw [written, Binary64.meaning_behindSign]
      cases hbelow : x.belowZero with
      | true => exact hI.neg_number_abs hfinite hbelow
      | false => exact hI.number_abs hbelow
  | case2 x right ih =>
      obtain ⟨hbelow, hright⟩ := h
      rw [written, Binary64.meaning_behindSign, hbelow, if_neg Bool.false_ne_true, Reading.meaning,
        ih hfinite.2 hright, Reading.meaning, hI.number_abs hbelow, meaning, meaning]
  | case3 left op right hbase ihleft ihright =>
      rw [PlainBases] at h
      · rw [written, Reading.meaning, ihleft hfinite.1 h.1, ihright hfinite.2 h.2, meaning]
        exact hbase
      · exact hbase

end Expr

/-! ### Reading the symbols -/

section Reading

variable {α : Type*} {I : Interpretation α}

/-- Readings with the same value are as good as each other. -/
theorem Interpretation.Associates.regrouping (hI : I.Associates) (neg : α → α) :
    signed.Regrouping fun r s => r.meaning I neg = s.meaning I neg where
  refl _ := rfl
  trans := Eq.trans
  binary op hleft hright := by rw [Reading.meaning, Reading.meaning, hleft, hright]
  add_add _ _ _ := hI.add_add _ _ _
  add_sub _ _ _ := hI.add_sub _ _ _
  mul_mul _ _ _ := hI.mul_mul _ _ _

namespace Expr

/-- Operations are written as they are, except for a power of a number. -/
theorem written_binary {left right : Expr} {op : Operator} (h : left.isNumber = true → op ≠ .pow) :
    written (binary left op right) = .binary left.written op right.written := by
  rw [written]
  rintro x rfl rfl
  exact h rfl rfl

/-- Where numbers may have a sign, an expression with finite numbers shows as what is written. -/
theorem shows_written (I : Interpretation α) (neg : α → α) :
    Shows signed (fun r s => r.meaning I neg = s.meaning I neg) Binary64.signedSymbols written
      fun x => x.isFinite = true where
  number {x} hfinite := by
    obtain ⟨hliteral, hread⟩ := Binary64.read?_latex_abs hfinite
    rw [written, Binary64.signedSymbols, Binary64.behindSign]
    cases x.belowZero with
    | true =>
        rw [if_pos rfl, if_pos rfl]
        exact .minus rfl hliteral hread
    | false => exact .base (.number hliteral hread)
  power {x right exponent s} hfinite hs hright := by
    obtain ⟨hliteral, hread⟩ := Binary64.read?_latex_abs hfinite
    refine ⟨x.behindSign (.binary (.number x.abs) .pow s), ?_, ?_⟩
    · rw [Binary64.signedSymbols, Binary64.behindSign]
      cases x.belowZero with
      | true =>
          rw [if_pos rfl, if_pos rfl]
          exact .minusPower rfl hliteral hread hs
      | false => exact .power (.number hliteral hread) hs
    · simp only [written, Binary64.meaning_behindSign, Reading.meaning, hright]
  binary := written_binary

/-- The LaTeX form has a reading with the value of what is written. -/
theorem exists_signed_reads (hI : I.Associates) (neg : α → α) {t : Expr}
    (h : t.All fun x => x.isFinite = true) :
    ∃ r, signed.Reads t.latex r ∧ r.meaning I neg = t.written.meaning I neg := by
  obtain ⟨r, hr, hmeaning⟩ := exists_derives (hI.regrouping neg) (shows_written I neg) h
  have hwrites := writes_symbolsWith (h.mono fun _ => Binary64.writes_signedSymbols)
  exact ⟨r, ⟨_, hwrites.symbols?_eq, hr.toSum⟩, hmeaning.symm⟩

end Expr

end Reading

/-! ### Two interpretations

In one, numbers are what they are, and the square of a number below zero shows what is lost. The other
keeps track of the bases of powers and nothing else, so that it tells the two readings apart even where
arithmetic does not, such as behind a factor of zero. -/

namespace Binary64

/-- The other sign makes the value the opposite one. -/
theorem units_neg (x : Binary64) : x.neg.units = -x.units := by
  unfold units neg
  cases x.negative with
  | false => rfl
  | true => simp

theorem units_zero : zero.units = 0 := rfl

/-- A number is below zero exactly if its exact value is. -/
theorem decide_units_lt_zero (x : Binary64) : decide (x.units < 0) = x.belowZero := by
  have hzero := @unitsOf_eq_zero_iff x.magnitude
  unfold units belowZero
  cases x.negative with
  | false => simp
  | true => simp [Nat.pos_iff_ne_zero, hzero]

end Binary64

namespace Interpretation

/-- Numbers have their exact values. An exponent is rounded down to an integer. -/
def rational : Interpretation ℚ where
  number x := x.units / Binary64.unitsPerOne
  apply
    | .add => (· + ·)
    | .sub => (· - ·)
    | .mul => (· * ·)
    | .div => (· / ·)
    | .pow => fun base exponent => base ^ ⌊exponent⌋

/-- The rationals have the laws that are asked for. -/
theorem rational_negates : rational.Negates (- ·) where
  add_add a b c := (add_assoc a b c).symm
  add_sub a b c := (add_sub_assoc a b c).symm
  mul_mul a b c := (mul_assoc a b c).symm
  number_neg x _ := by simp only [rational, Binary64.units_neg, Int.cast_neg, neg_div]
  neg_zero := by simp only [rational, Binary64.units_zero, Int.cast_zero, zero_div, neg_zero]

/-- A number that is an integer is that integer among the rationals. -/
theorem rational_number {x : Binary64} {z : Int} (h : x.units = z * Binary64.unitsPerOne) :
    rational.number x = z := by
  have hpos : (Binary64.unitsPerOne : ℚ) ≠ 0 := Nat.cast_ne_zero.2 Binary64.unitsPerOne_pos.ne'
  calc rational.number x = (x.units : ℚ) / Binary64.unitsPerOne := rfl
    _ = (z * Binary64.unitsPerOne : ℚ) / Binary64.unitsPerOne := by
        rw [h, Int.cast_mul, Int.cast_natCast]
    _ = z := mul_div_cancel_right₀ _ hpos

/-- Whether a number below zero has been the base of a power, and the value as long as it is that of a
    single number. -/
def basesBelowZero : Interpretation (Bool × Option Int) where
  number x := (false, some x.units)
  apply op a b := (a.1 || b.1 || op = .pow && a.2.any (· < 0), none)

/-- The negative of a single number. -/
def basesBelowZeroNeg (a : Bool × Option Int) : Bool × Option Int := (a.1, a.2.map (- ·))

/-- The second interpretation has the laws that are asked for, without being a field. -/
theorem basesBelowZero_negates : basesBelowZero.Negates basesBelowZeroNeg where
  add_add a b c := by simp [basesBelowZero, Bool.or_assoc]
  add_sub a b c := by simp [basesBelowZero, Bool.or_assoc]
  mul_mul a b c := by simp [basesBelowZero, Bool.or_assoc]
  number_neg x _ := by simp [basesBelowZero, basesBelowZeroNeg, Binary64.units_neg]
  neg_zero := by simp [basesBelowZero, basesBelowZeroNeg, Binary64.units_zero]

/-- No base has been below zero if there is none in the operands, and none is made by the operation.
    -/
theorem basesBelowZero_apply_iff {op : Operator} {a b : Bool × Option Int} :
    (basesBelowZero.apply op a b).1 = false ↔
      (op = .pow → a.2.any (· < 0) = false) ∧ a.1 = false ∧ b.1 = false := by
  simp only [basesBelowZero, Bool.or_eq_false_iff, Bool.and_eq_false_imp, decide_eq_true_eq, and_comm]

end Interpretation

namespace Expr

open Interpretation (basesBelowZero basesBelowZeroNeg basesBelowZero_apply_iff)

/-- In the second interpretation, an expression shows whether all its bases are plain. -/
theorem meaning_basesBelowZero_iff (t : Expr) :
    (t.meaning basesBelowZero).1 = false ↔ t.PlainBases := by
  induction t using written.induct with
  | case1 x => exact iff_of_true rfl trivial
  | case2 x right ih =>
      have hnumber : ((number x).meaning basesBelowZero).2.any (· < 0) = x.belowZero :=
        x.decide_units_lt_zero
      rw [meaning, basesBelowZero_apply_iff, hnumber, ih, PlainBases]
      exact ⟨fun h => ⟨h.1 rfl, h.2.2⟩, fun h => ⟨fun _ => h.1, rfl, h.2⟩⟩
  | case3 left op right hbase ihleft ihright =>
      have hvalue : op = .pow → (left.meaning basesBelowZero).2.any (· < 0) = false := by
        intro hop
        cases left with
        | number x => exact (hbase x rfl hop).elim
        | binary left' op' right' => rfl
      rw [meaning, basesBelowZero_apply_iff, ihleft, ihright, PlainBases]
      · exact and_iff_right hvalue
      · exact hbase

/-- A sign in front of an operation does not make it a single number. -/
theorem written_binary_value (left : Expr) (op : Operator) (right : Expr) :
    ((binary left op right).written.meaning basesBelowZero basesBelowZeroNeg).2 = none := by
  unfold written
  split
  · rename_i hnumber
    cases hnumber
  · rw [Binary64.meaning_behindSign]
    split
    · rfl
    · rfl
  · rfl

/-- A sign in front of a reading makes no base. -/
theorem behindSign_basesBelowZero (x : Binary64) (r : Reading) :
    ((x.behindSign r).meaning basesBelowZero basesBelowZeroNeg).1 =
      (r.meaning basesBelowZero basesBelowZeroNeg).1 := by
  rw [Binary64.meaning_behindSign]
  split
  · rfl
  · rfl

/-- What is written never has a number below zero as a base. -/
theorem written_basesBelowZero (t : Expr) :
    (t.written.meaning basesBelowZero basesBelowZeroNeg).1 = false := by
  induction t using written.induct with
  | case1 x => rw [written, behindSign_basesBelowZero, Reading.meaning, basesBelowZero]
  | case2 x right ih =>
      rw [written, behindSign_basesBelowZero, Reading.meaning, basesBelowZero_apply_iff]
      exact ⟨fun _ => x.abs.decide_units_lt_zero, rfl, ih⟩
  | case3 left op right hbase ihleft ihright =>
      rw [written, Reading.meaning, basesBelowZero_apply_iff]
      · refine ⟨?_, ihleft, ihright⟩
        intro hop
        cases left with
        | number x => exact (hbase x rfl hop).elim
        | binary left' op' right' => rw [written_binary_value, Option.any_none]
      · exact hbase

/-- The LaTeX form of an expression with finite numbers of either sign has one reading, whose value is
    that of what is written. If no number below zero is the base of a power, this is the value of the
    expression in every interpretation with the few laws that are asked for, so in every field. Otherwise
    these laws do not suffice: they hold in an interpretation, although no field, where the two values
    differ. -/
theorem latex_reads_written {t : Expr} (h : t.All fun x => x.isFinite = true) :
    ∃ r, (∀ s, signed.Reads t.latex s ↔ s = r) ∧
      (∀ {α : Type*} (I : Interpretation α) (neg : α → α), I.Negates neg →
        r.meaning I neg = t.written.meaning I neg ∧
          (t.PlainBases → r.meaning I neg = t.meaning I)) ∧
      (¬ t.PlainBases → ∃ (I : Interpretation (Bool × Option Int)) (neg : Bool × Option Int → _),
        I.Negates neg ∧ r.meaning I neg ≠ t.meaning I) := by
  have hflag := Interpretation.basesBelowZero_negates
  obtain ⟨r, hreads, hmeaning⟩ := exists_signed_reads hflag.toAssociates basesBelowZeroNeg h
  refine ⟨r, hreads.iff_eq, ?_, ?_⟩
  · intro α I neg hI
    obtain ⟨s, hs, hvalue⟩ := exists_signed_reads hI.toAssociates neg h
    rw [hs.unique hreads] at hvalue
    exact ⟨hvalue, fun hplain => hvalue.trans (meaning_written hI h hplain)⟩
  · intro hplain
    refine ⟨basesBelowZero, basesBelowZeroNeg, hflag, ?_⟩
    intro heq
    have hwritten := written_basesBelowZero t
    rw [← hmeaning, heq, meaning_basesBelowZero_iff] at hwritten
    exact hplain hwritten

/-- A number below zero behind a minus sign, as a factor and as an exponent: the form of
    `2 - (-3) * 2 ^ (-1)` keeps its value without brackets. -/
theorem latex_reads_written_difference :
    ∃ (t : Expr) (r : Reading), (t.All fun x => x.isFinite = true) ∧ t.PlainBases ∧
      t.latex = "2 - -3 \\cdot 2^\x7b-1\x7d".toList ∧ (∀ s, signed.Reads t.latex s ↔ s = r) ∧
      t.meaning .rational = 7 / 2 ∧ r.meaning .rational (- ·) = 7 / 2 := by
  let t : Expr :=
    binary (number (.ofBits 0x4000000000000000)) .sub
      (binary (number (.ofBits 0xc008000000000000)) .mul
        (binary (number (.ofBits 0x4000000000000000)) .pow (number (.ofBits 0xbff0000000000000))))
  have hfinite : t.All fun x => x.isFinite = true := by
    simp only [t, All]
    decide +kernel
  have hplain : t.PlainBases := by
    simp only [t, PlainBases]
    decide +kernel
  have htwo : Interpretation.rational.number (.ofBits 0x4000000000000000) = (2 : Int) :=
    Interpretation.rational_number (by decide +kernel)
  have hminusThree : Interpretation.rational.number (.ofBits 0xc008000000000000) = (-3 : Int) :=
    Interpretation.rational_number (by decide +kernel)
  have hminusOne : Interpretation.rational.number (.ofBits 0xbff0000000000000) = (-1 : Int) :=
    Interpretation.rational_number (by decide +kernel)
  have hvalue : t.meaning .rational = 7 / 2 := by
    simp only [t, meaning, htwo, hminusThree, hminusOne]
    simp only [Interpretation.rational, Int.floor_intCast]
    norm_num
  obtain ⟨r, hreads, hmeaning, -⟩ := latex_reads_written hfinite
  have hread := (hmeaning _ _ Interpretation.rational_negates).2 hplain
  exact ⟨t, r, hfinite, hplain, by decide +kernel, hreads, hvalue, hread.trans hvalue⟩

/-- The form of the square of -2 has no brackets around its base. Its only reading is the negative of a
    square, so that it stands for -4 and not for 4. -/
theorem latex_negative_base :
    ∃ (t : Expr) (r : Reading),
      t = binary (number (.ofBits 0xc000000000000000)) .pow (number (.ofBits 0x4000000000000000)) ∧
      r = .minus (.binary (.number (.ofBits 0x4000000000000000)) .pow
        (.number (.ofBits 0x4000000000000000))) ∧
      (t.All fun x => x.isFinite = true) ∧ t.latex = "-2^\x7b2\x7d".toList ∧
      (∀ s, signed.Reads t.latex s ↔ s = r) ∧ Interpretation.rational.Negates (- ·) ∧
      t.meaning .rational = 4 ∧ r.meaning .rational (- ·) = -4 := by
  have hminusTwo : Interpretation.rational.number (.ofBits 0xc000000000000000) = (-2 : Int) :=
    Interpretation.rational_number (by decide +kernel)
  have htwo : Interpretation.rational.number (.ofBits 0x4000000000000000) = (2 : Int) :=
    Interpretation.rational_number (by decide +kernel)
  have hliteral : Numeral.IsLiteral "2".toList := .whole (Numeral.isRow_singleton (by decide))
  have hread : Numeral.read? "2".toList = some (.ofBits 0x4000000000000000) := by decide +kernel
  have hexponent : signed.Derives .sum _ _ := .toSum (.number hliteral hread)
  have hpower : signed.Derives .sum _ _ := .toSum (.minusPower rfl hliteral hread hexponent)
  have hsymbols : Latex.symbols? "-2^\x7b2\x7d".toList =
      some [.sign .minus, .number "2".toList, .power, .number "2".toList, .close] := by decide +kernel
  have hlatex : (binary (number (.ofBits 0xc000000000000000)) .pow
      (number (.ofBits 0x4000000000000000))).latex = "-2^\x7b2\x7d".toList := by decide +kernel
  refine ⟨_, _, rfl, rfl, ?_, hlatex, ?_, Interpretation.rational_negates, ?_, ?_⟩
  · simp only [All]
    decide +kernel
  · rw [hlatex]
    exact Latex.Convention.Reads.iff_eq ⟨_, hsymbols, hpower⟩
  · simp only [meaning, htwo, hminusTwo]
    simp only [Interpretation.rational, Int.floor_intCast]
    norm_num
  · simp only [Reading.meaning, htwo]
    simp only [Interpretation.rational, Int.floor_intCast]
    norm_num

end Expr

end Calculator
