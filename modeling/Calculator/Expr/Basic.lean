/-
Module: Calculator.Expr.Basic
Layer: Expressions
Purpose: Expression trees: numbers at the leaves and an operator at every other node. The value of a
  tree applies the operators from the leaves up, and its depth counts the nodes on a longest path.
Imports: Calculator.Binary64.Arithmetic
Trusted boundary: none
Main exports: Expr, Expr.value, Expr.depth, Expr.same
-/
import Calculator.Binary64.Arithmetic

namespace Calculator

/-- An arithmetic expression. -/
inductive Expr where
  | number (value : Binary64)
  | binary (left : Expr) (op : Operator) (right : Expr)
  deriving DecidableEq, Repr

namespace Expr

/-- The value of an expression. -/
def value : Expr → Binary64
  | number x => x
  | binary left op right => op.apply left.value right.value

/-- The number of nodes on a longest path from the root to a leaf. -/
def depth : Expr → Nat
  | number _ => 1
  | binary left _ right => max left.depth right.depth + 1

/-- Whether two expressions have the same shape and operators, and equal numbers at their leaves.
    Zeros of either sign are equal there, and what is no number makes the expressions differ. -/
def same : Expr → Expr → Bool
  | number x, number y => x.same y
  | binary l op r, binary l' op' r' => op = op' && l.same l' && r.same r'
  | _, _ => false

end Expr

end Calculator
