/-
Module: Calculator.Binary64.Text
Layer: Numbers
Purpose: How a double is written: its shortest decimal in positional notation behind a minus sign if
  its sign bit is set, `inf` for the infinities, and `NaN`, without a sign, for what is no number.
Imports: Calculator.Decimal.Shortest
Trusted boundary: none
Main exports: Binary64.toText
-/
import Calculator.Decimal.Shortest

namespace Calculator.Binary64

/-- The text of a magnitude that is a number. -/
def magnitudeText (magnitude : Nat) : Text :=
  if magnitude = infinity then ['i', 'n', 'f'] else (Decimal.shortest magnitude).positional

/-- The text of a double. -/
def toText (x : Binary64) : Text :=
  if x.isNaN then ['N', 'a', 'N']
  else if x.negative then '-' :: magnitudeText x.magnitude
  else magnitudeText x.magnitude

end Calculator.Binary64
