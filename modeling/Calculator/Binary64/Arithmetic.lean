/-
Module: Calculator.Binary64.Arithmetic
Layer: Numbers
Purpose: What each operator computes on doubles. Sums, differences, products and quotients are
  correctly rounded, overflow to the infinities, and a division by zero is no error; powers are
  those of the machine's mathematical library.
Imports: Calculator.Binary64.Basic, Calculator.Operator
Trusted boundary: the arithmetic of the machine: its four operations and its powers
Main exports: Binary64.toFloat, Binary64.ofFloat, Operator.apply
-/
import Calculator.Binary64.Basic
import Calculator.Operator

namespace Calculator

namespace Binary64

/-- The machine number with the same word. -/
def toFloat (x : Binary64) : Float := Float.ofBits x.toBits

/-- The double with the word of a machine number. -/
def ofFloat (f : Float) : Binary64 := ofBits f.toBits

end Binary64

/-- The value of an operator at two operands. -/
def Operator.apply (op : Operator) (left right : Binary64) : Binary64 :=
  let a := left.toFloat
  let b := right.toFloat
  .ofFloat <|
    match op with
    | .add => a + b
    | .sub => a - b
    | .mul => a * b
    | .div => a / b
    | .pow => a ^ b

end Calculator
