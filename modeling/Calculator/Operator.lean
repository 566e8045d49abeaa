/-
Module: Calculator.Operator
Layer: Operators
Purpose: The five binary operators, their symbols and how tightly each binds. Every operator has a
  rank of its own, so no two of them share a level.
Imports: Calculator.Text.Basic
Trusted boundary: none
Main exports: Operator, Operator.symbol, Operator.ofSymbol?, Operator.rank
-/
import Calculator.Text.Basic

namespace Calculator

/-- A binary operator. -/
inductive Operator where
  | add
  | sub
  | mul
  | div
  | pow
  deriving DecidableEq, Repr

namespace Operator

/-- The character an operator is written with. -/
def symbol : Operator → Char
  | add => '+'
  | sub => '-'
  | mul => '*'
  | div => '/'
  | pow => '^'

/-- The operator a character stands for, if any. -/
def ofSymbol? (c : Char) : Option Operator :=
  if c = '+' then some add
  else if c = '-' then some sub
  else if c = '*' then some mul
  else if c = '/' then some div
  else if c = '^' then some pow
  else none

/-- How loosely an operator binds: of two operators the one with the larger rank is applied later.
    -/
def rank : Operator → Nat
  | pow => 0
  | mul => 1
  | div => 2
  | add => 3
  | sub => 4

@[simp] theorem ofSymbol?_symbol (op : Operator) : ofSymbol? op.symbol = some op := by
  cases op <;> rfl

/-- Only the symbol of an operator stands for it. -/
theorem ofSymbol?_eq_some_iff {c : Char} {op : Operator} :
    ofSymbol? c = some op ↔ c = op.symbol := by
  constructor
  · intro h
    cases op <;> grind [ofSymbol?, Operator.symbol]
  · rintro rfl
    exact ofSymbol?_symbol op

end Operator

end Calculator
