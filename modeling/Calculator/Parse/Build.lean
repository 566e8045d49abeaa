/-
Module: Calculator.Parse.Build
Layer: Parsing
Purpose: From tokens and texts to expressions. A list of tokens is split at its loosest operator and
  both sides are built in turn; a group standing alone is opened, scanned and built. Two limits keep
  the result small: one on how deeply groups are nested, one on how many operators lie on a path.
Imports: Calculator.Expr.Basic, Calculator.Parse.Error, Calculator.Parse.Split
Trusted boundary: none
Main exports: Limits, Parse.buildAt, Parse.build, Parse.parse
-/
import Calculator.Expr.Basic
import Calculator.Parse.Error
import Calculator.Parse.Split

namespace Calculator

/-- The limits on what is accepted. -/
structure Limits where
  /-- How many groups may be open around a token. -/
  nesting : Nat := 512
  /-- How many operators may lie on a path from the root of an expression. -/
  chain : Nat := 2048
  deriving DecidableEq, Repr

namespace Parse

/-- Builds tokens that stand inside `nesting` groups and below `splits` operators. The limits are
    checked first, and the left operand is built before the right one. -/
def buildAt (limits : Limits) (nesting splits : Nat) (tokens : List Token) :
    Except ParseError Expr :=
  if limits.nesting < nesting then .error (.nestedTooDeeply limits.nesting)
  else if limits.chain < splits then .error (.chainedTooLong limits.chain)
  else
    match tokens with
    | [] => .error .empty
    | [.group group] =>
        match _ : Token.scan (Bracket.stripOuter group) with
        | .error error => .error (.scan error)
        | .ok inner => buildAt limits (nesting + 1) splits inner
    | [.number literal] =>
        match Numeral.read? literal with
        | some value => .ok (.number value)
        | none => .error (.badNumber literal)
    | [.operator op] => .error (.noOperator [op.symbol])
    | several =>
        match _ : Split.loosest? several with
        | none => .error (.noOperator (Token.format several))
        | some split =>
            match buildAt limits nesting (splits + 1) split.left with
            | .error error => .error error
            | .ok left =>
                match buildAt limits nesting (splits + 1) split.right with
                | .error error => .error error
                | .ok right => .ok (.binary left split.op right)
termination_by Token.totalWeight tokens
decreasing_by
  · rename_i hscan
    simpa [Token.totalWeight] using Token.totalWeight_scan_stripOuter hscan
  · exact (Split.totalWeight_lt ‹Split.loosest? _ = some _›).1
  · exact (Split.totalWeight_lt ‹Split.loosest? _ = some _›).2

/-- Builds the expression of a list of tokens. -/
def build (limits : Limits) (tokens : List Token) : Except ParseError Expr :=
  buildAt limits 0 0 tokens

/-- Reads a text as an expression. -/
def parse (limits : Limits) (text : Text) : Except ParseError Expr :=
  match Token.scan text with
  | .error error => .error (.scan error)
  | .ok tokens => build limits tokens

end Parse

end Calculator
