/-
Module: Calculator.Decimal.Basic
Layer: Numbers
Purpose: Exact decimals, the double nearest to one, and how one is written. A decimal is written
  positionally whatever its size: zeros fill up the places, and there is never an exponent.
Imports: Calculator.Text.Basic, Calculator.Binary64.Rounding
Trusted boundary: none
Main exports: Decimal, Decimal.nearest, Decimal.positional
-/
import Calculator.Text.Basic
import Calculator.Binary64.Rounding

namespace Calculator

/-- The non-negative decimal `coefficient * 10 ^ exponent`. -/
structure Decimal where
  coefficient : Nat
  exponent : Int
  deriving DecidableEq, Repr

namespace Decimal

/-- The magnitude of the double nearest to a decimal. -/
def nearest (d : Decimal) : Nat :=
  Binary64.nearest (d.coefficient * Nat.pow 10 d.exponent.toNat * Binary64.unitsPerOne)
    (Nat.pow 10 (-d.exponent).toNat)

/-- The digits of a decimal with a point where its exponent puts it. With `places` digits behind the
    point, zeros go in front until at least one digit stands before it. -/
def positional (d : Decimal) : Text :=
  let digits := Text.ofNat d.coefficient
  let places := (-d.exponent).toNat
  if places = 0 then digits ++ List.replicate d.exponent.toNat '0'
  else
    let padded := List.replicate (places + 1 - digits.length) '0' ++ digits
    padded.take (padded.length - places) ++ '.' :: padded.drop (padded.length - places)

end Decimal

end Calculator
