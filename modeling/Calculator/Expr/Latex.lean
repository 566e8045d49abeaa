/-
Module: Calculator.Expr.Latex
Layer: Expressions
Purpose: Expressions as LaTeX. Fractions and exponents delimit their parts themselves; brackets are
  written around the operands that would otherwise bind to the wrong operator.
Imports: Calculator.Binary64.Text, Calculator.Expr.Basic
Trusted boundary: none
Main exports: Binary64.latex, Expr.isSum, Expr.isNumber, Expr.latex
-/
import Calculator.Binary64.Text
import Calculator.Expr.Basic

namespace Calculator

namespace Binary64

/-- The natural number a finite magnitude denotes, if it is below 10^18. -/
def smallWhole? (magnitude : Nat) : Option Nat :=
  let units := unitsOf magnitude
  if magnitude < infinity && units % unitsPerOne = 0 &&
      units < 1000000000000000000 * unitsPerOne then
    some (units / unitsPerOne)
  else none

/-- A double in LaTeX. Whole numbers below 10^18 are written with all their digits, and a zero has
    no sign; infinities have their symbol, and all other numbers are written as usual. -/
def latex (x : Binary64) : Text :=
  match smallWhole? x.magnitude with
  | some n => if x.negative && n ≠ 0 then '-' :: Text.ofNat n else Text.ofNat n
  | none =>
      if x.isNaN then "\\mathrm\x7bNaN\x7d".toList
      else if x.magnitude = infinity then
        if x.negative then "-\\infty".toList else "\\infty".toList
      else x.toText

end Binary64

namespace Expr

/-- Whether the root of an expression is an addition or a subtraction. -/
def isSum : Expr → Bool
  | binary _ .add _ => true
  | binary _ .sub _ => true
  | _ => false

/-- Whether an expression is a single number. -/
def isNumber : Expr → Bool
  | number _ => true
  | binary _ _ _ => false

/-- A text between brackets that grow with it. -/
def bracketed (text : Text) : Text := "\\left(".toList ++ text ++ "\\right)".toList

/-- A text in brackets if the condition holds. -/
def bracketedIf (condition : Bool) (text : Text) : Text :=
  if condition then bracketed text else text

/-- A text as the argument of a command. -/
def argument (text : Text) : Text := '\x7b' :: (text ++ ['\x7d'])

/-- An expression in LaTeX. -/
def latex : Expr → Text
  | number x => x.latex
  | binary left op right =>
      match op with
      | .add => latex left ++ " + ".toList ++ latex right
      | .sub => latex left ++ " - ".toList ++ bracketedIf right.isSum (latex right)
      | .mul =>
          bracketedIf left.isSum (latex left) ++ " \\cdot ".toList ++
            bracketedIf right.isSum (latex right)
      | .div => "\\frac".toList ++ argument (latex left) ++ argument (latex right)
      | .pow =>
          bracketedIf (!left.isNumber) (latex left) ++ '^' :: argument (latex right)

end Expr

end Calculator
