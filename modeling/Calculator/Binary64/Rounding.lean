/-
Module: Calculator.Binary64.Rounding
Layer: Numbers
Purpose: Rounding of a non-negative rational to the nearest double, ties to even. The rational is
  given as a quotient of naturals in units of 2^-1074, so the whole of rounding is one division of
  naturals at the right scale; a carry out of the fraction runs into the exponent by itself, because
  magnitudes are consecutive.
Imports: Calculator.Binary64.Basic
Trusted boundary: none
Main exports: Binary64.roundDiv, Binary64.nearest, Binary64.nearest_le, Binary64.nearest_lt
-/
import Calculator.Binary64.Basic

namespace Calculator.Binary64

/-- The natural number nearest to `n / d`; the even one of two that are equally near. -/
def roundDiv (n d : Nat) : Nat :=
  let quotient := n / d
  let twice := 2 * (n % d)
  if twice < d then quotient
  else if d < twice then quotient + 1
  else quotient + quotient % 2

/-- The magnitude of the double nearest to `n / d` units. Every value has 53 significant bits or,
    near zero, whole units; what exceeds the largest finite number by half a step or more is
    infinite. -/
def nearest (n d : Nat) : Nat :=
  let scale := Nat.log2 (n / d) - 52
  min (roundDiv n (d * Nat.pow 2 scale) + scale * fractions) infinity

theorem nearest_le (n d : Nat) : nearest n d ≤ infinity := Nat.min_le_right _ _

/-- What a fraction rounds to fits into the bits of a double behind its sign. -/
theorem nearest_lt (n d : Nat) : nearest n d < 0x8000000000000000 :=
  Nat.lt_of_le_of_lt (nearest_le n d) (by decide)

end Calculator.Binary64
