/-
Module: Calculator.Expr.Canonical
Layer: Expressions
Purpose: The canonical form of an expression: every operator in brackets of its own, with one space
  on either side of its symbol.
Imports: Calculator.Binary64.Text, Calculator.Expr.Basic
Trusted boundary: none
Main exports: Expr.canonical
-/
import Calculator.Binary64.Text
import Calculator.Expr.Basic

namespace Calculator.Expr

/-- The fully bracketed form of an expression. -/
def canonical : Expr → Text
  | number x => x.toText
  | binary left op right =>
      '(' :: (canonical left ++ ' ' :: op.symbol :: ' ' :: (canonical right ++ [')']))

end Calculator.Expr
