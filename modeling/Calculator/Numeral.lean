/-
Module: Calculator.Numeral
Layer: Numbers
Purpose: Number literals. Expressions hold plain ones, digits with an optional fraction, and
  `takeLiteral` cuts the longest of them off a text. The reader of literals accepts more: a sign, a
  missing whole or fractional part and an exponent. It rounds to the nearest double and refuses what
  would be infinite.
Imports: Calculator.Decimal.Basic
Trusted boundary: none
Main exports: Numeral, Numeral.ofText?, Numeral.read?, Numeral.takeLiteral
-/
import Calculator.Decimal.Basic

namespace Calculator

/-- The parts of a number literal. -/
structure Numeral where
  negative : Bool
  /-- The digits before the point. -/
  whole : Text
  /-- The digits behind the point. -/
  fraction : Text
  exponent : Int
  deriving DecidableEq, Repr

namespace Numeral

/-! ### Digits -/

/-- The value of an ASCII digit. -/
def digitValue (c : Char) : Nat := c.toNat - '0'.toNat

/-- The value of a row of digits. -/
def digitsValue (digits : Text) : Nat := digits.foldl (fun n c => 10 * n + digitValue c) 0

/-- The digits a text starts with. -/
def leadingDigits (text : Text) : Text := text.takeWhile Char.isDigit

/-- A text without the digits it starts with. -/
def skipDigits (text : Text) : Text := text.dropWhile Char.isDigit

/-- The digits at the start of a text and the rest make up the text. -/
theorem leadingDigits_append_skipDigits (text : Text) :
    leadingDigits text ++ skipDigits text = text := List.takeWhile_append_dropWhile

/-! ### Reading -/

/-- Takes an optional sign off a text, and whether it is a minus. -/
def takeSign : Text → Bool × Text
  | '-' :: rest => (true, rest)
  | '+' :: rest => (false, rest)
  | text => (false, text)

/-- Takes an optional point with the digits behind it off a text. -/
def takeFraction : Text → Text × Text
  | '.' :: rest => (leadingDigits rest, skipDigits rest)
  | text => ([], text)

/-- Reads what may follow the digits of a literal: nothing, or an exponent with at least one digit.
    -/
def exponent? : Text → Option Int
  | [] => some 0
  | mark :: rest =>
      let (negative, digits) := takeSign rest
      if (mark = 'e' || mark = 'E') && !digits.isEmpty && digits.all Char.isDigit then
        some (if negative then -(digitsValue digits : Int) else digitsValue digits)
      else none

/-- Takes a literal apart. At least one digit must stand before or behind the point. -/
def ofText? (text : Text) : Option Numeral :=
  let (negative, body) := takeSign text
  let whole := leadingDigits body
  let (fraction, rest) := takeFraction (skipDigits body)
  if whole.isEmpty && fraction.isEmpty then none
  else (exponent? rest).map fun exponent => { negative, whole, fraction, exponent }

/-- The exponent of a literal, kept within bounds that depend on its number of digits only. Beyond
    them the literal is too large or too small to be told from one on the bound, so the bounds keep
    the arithmetic small and change no result. -/
def boundedExponent (numeral : Numeral) : Int :=
  let bound : Int := numeral.whole.length + numeral.fraction.length + 400
  max (-bound) (min bound numeral.exponent)

/-- The decimal a literal denotes, its sign apart. -/
def decimal (numeral : Numeral) : Decimal where
  coefficient := digitsValue (numeral.whole ++ numeral.fraction)
  exponent := numeral.boundedExponent - numeral.fraction.length

/-- The magnitude of what is read fits into the bits of a double behind its sign. -/
theorem decimal_nearest_lt (numeral : Numeral) : numeral.decimal.nearest < 0x8000000000000000 :=
  Binary64.nearest_lt _ _

/-- The double nearest to a literal. -/
def value (numeral : Numeral) : Binary64 :=
  ⟨numeral.negative, numeral.decimal.nearest, numeral.decimal_nearest_lt⟩

/-- Reads a literal as a finite double. -/
def read? (text : Text) : Option Binary64 :=
  match ofText? text with
  | some numeral => if numeral.value.isFinite then some numeral.value else none
  | none => none

/-! ### Cutting literals off a text -/

/-- Cuts the longest plain literal off a text: digits, and a point with digits behind it. A point
    that no digit follows stays in the text. The first part is empty if the text starts with no
    digit. -/
def takeLiteral (text : Text) : Text × Text :=
  let whole := leadingDigits text
  let rest := skipDigits text
  if whole.isEmpty then ([], text)
  else
    match rest with
    | '.' :: tail =>
        if (leadingDigits tail).isEmpty then (whole, rest)
        else (whole ++ '.' :: leadingDigits tail, skipDigits tail)
    | _ => (whole, rest)

/-- A cut loses nothing. -/
theorem takeLiteral_append (text : Text) :
    (takeLiteral text).1 ++ (takeLiteral text).2 = text := by
  have h := leadingDigits_append_skipDigits text
  unfold takeLiteral
  simp only
  split
  · rfl
  · split
    · rename_i tail htail
      split
      · exact h
      · simp only [List.append_assoc, List.cons_append, leadingDigits_append_skipDigits]
        rw [← htail, h]
    · exact h

end Numeral

end Calculator
