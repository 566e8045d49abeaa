/-
Module: Calculator.Token.Basic
Layer: Tokens
Purpose: The tokens of one level of an expression. A bracketed group is a single token that keeps
  its whole text, brackets included; what stands inside is looked at only when the group is built.
Imports: Calculator.Operator
Trusted boundary: none
Main exports: Token, Token.text, Token.format, Token.weight, Token.totalWeight
-/
import Calculator.Operator

namespace Calculator

/-- A token of an expression. -/
inductive Token where
  /-- A number literal. -/
  | number (literal : Text)
  /-- An operator. -/
  | operator (op : Operator)
  /-- A bracketed group with its brackets. -/
  | group (text : Text)
  deriving DecidableEq, Repr

namespace Token

/-- The text a token was read from. -/
def text : Token → Text
  | number literal => literal
  | operator op => [op.symbol]
  | group text => text

/-- Tokens written out, with one space between any two of them. -/
def format (tokens : List Token) : Text := Text.unwords (tokens.map text)

/-! ### Weights

The weight of a list of tokens bounds the work of building it. Opening a group replaces the group by
its inner tokens; as a character outside a group weighs at most half as much as a character inside
one, the weight falls even when the group had no brackets to lose. -/

/-- The weight of a token. -/
def weight : Token → Nat
  | number literal => literal.length
  | operator _ => 1
  | group text => max 1 (2 * text.length)

/-- The weight of a list of tokens. -/
def totalWeight : List Token → Nat
  | [] => 0
  | token :: tokens => token.weight + totalWeight tokens

@[simp] theorem totalWeight_append (left right : List Token) :
    totalWeight (left ++ right) = totalWeight left + totalWeight right := by
  induction left with
  | nil => simp [totalWeight]
  | cons token left ih => simp [totalWeight, ih, Nat.add_assoc]

end Token

end Calculator
