/-
Module: Calculator.Parse.Split
Layer: Parsing
Purpose: The operator at which a list of tokens is split: the one that binds loosest, and of several
  equally loose ones the rightmost, so that chains of one operator group to the left.
Imports: Calculator.Token.Basic
Trusted boundary: none
Main exports: Split, Split.loosest?, Split.tokens_of_loosest?,
  Split.totalWeight_lt
-/
import Calculator.Token.Basic

namespace Calculator

/-- A list of tokens around an operator. -/
structure Split where
  /-- The tokens before the operator. -/
  left : List Token
  op : Operator
  /-- The tokens behind it. -/
  right : List Token
  deriving DecidableEq, Repr

namespace Split

/-- The tokens that a split takes apart. -/
def tokens (split : Split) : List Token := split.left ++ .operator split.op :: split.right

/-- The position of the operator among the tokens. -/
def index (split : Split) : Nat := split.left.length

/-- The same split with one more token in front. -/
def push (token : Token) (split : Split) : Split := { split with left := token :: split.left }

/-- The split at the rightmost of the loosest operators. An operator takes the place of the best one
    to its right only if it binds strictly looser. -/
def loosest? : List Token → Option Split
  | [] => none
  | .operator op :: rest =>
      match loosest? rest with
      | none => some ⟨[], op, rest⟩
      | some best =>
          if best.op.rank < op.rank then some ⟨[], op, rest⟩ else some (best.push (.operator op))
  | token :: rest => (loosest? rest).map (push token)

@[simp] theorem tokens_push (token : Token) (split : Split) :
    (split.push token).tokens = token :: split.tokens := rfl

/-- A split takes apart the tokens it was found in. -/
theorem tokens_of_loosest? {list : List Token} {split : Split} (h : loosest? list = some split) :
    split.tokens = list := by
  fun_induction loosest? list generalizing split with
  | case1 => cases h
  | case2 => cases h; rfl
  | case3 => cases h; rfl
  | case4 op rest best hbest _ ih => cases h; rw [tokens_push, ih hbest]
  | case5 token rest _ ih =>
    obtain ⟨best, hbest, rfl⟩ := Option.map_eq_some_iff.1 h
    rw [tokens_push, ih hbest]

/-- Both sides of a split weigh less than the whole. -/
theorem totalWeight_lt {list : List Token} {split : Split} (h : loosest? list = some split) :
    Token.totalWeight split.left < Token.totalWeight list ∧
      Token.totalWeight split.right < Token.totalWeight list := by
  rw [← tokens_of_loosest? h]
  simp only [tokens, Token.totalWeight_append, Token.totalWeight, Token.weight]
  omega

end Split

end Calculator
