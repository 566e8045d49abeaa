/-
Module: Calculator.Parse.Error
Layer: Parsing
Purpose: Why a text is no expression, the kind of each cause, and the message for it. Messages quote
  the offending text as it stands, without escaping anything.
Imports: Calculator.Token.Scan
Trusted boundary: none
Main exports: ParseError, ErrorKind, ParseError.kind, BracketError.message, ScanError.message,
  ParseError.message
-/
import Calculator.Token.Scan

namespace Calculator

/-- Why a text or a list of tokens is no expression. -/
inductive ParseError where
  /-- A text does not split into tokens. -/
  | scan (error : ScanError)
  /-- An operand is missing. -/
  | empty
  /-- Operands without an operator between them, or an operator on its own. -/
  | noOperator (tokens : Text)
  /-- A literal that denotes no finite number. -/
  | badNumber (literal : Text)
  /-- Brackets are nested more deeply than the limit. -/
  | nestedTooDeeply (limit : Nat)
  /-- More operators than the limit stand above one another. -/
  | chainedTooLong (limit : Nat)
  deriving DecidableEq, Repr

/-- The kinds of causes, without what they quote. -/
inductive ErrorKind where
  | unexpectedCharacter
  | unclosedBracket
  | missingBracket
  | empty
  | noOperator
  | badNumber
  | nestedTooDeeply
  | chainedTooLong
  deriving DecidableEq, Repr

/-! ### Kinds -/

def BracketError.kind : BracketError → ErrorKind
  | notOpened _ => .missingBracket
  | unclosed _ => .unclosedBracket

def ScanError.kind : ScanError → ErrorKind
  | unexpected _ _ _ => .unexpectedCharacter
  | bracket error => error.kind

def ParseError.kind : ParseError → ErrorKind
  | scan error => error.kind
  | empty => .empty
  | noOperator _ => .noOperator
  | badNumber _ => .badNumber
  | nestedTooDeeply _ => .nestedTooDeeply
  | chainedTooLong _ => .chainedTooLong

/-! ### Messages -/

def BracketError.message : BracketError → Text
  | notOpened text =>
      "String \"".toList ++ text ++ "\" doesn't begin with a bracket expression".toList
  | unclosed text =>
      "String \"".toList ++ text ++
        "\" doesn't begin with a well bracketed expression, missing closing bracket".toList

def ScanError.message : ScanError → Text
  | unexpected offset found text =>
      "Unexpected character '".toList ++ found :: "' at position ".toList ++ Text.ofNat offset ++
        " in \"".toList ++ text ++ ['"']
  | bracket error => error.message

def ParseError.message : ParseError → Text
  | scan error => error.message
  | empty => "Expression wasn't valid, empty list attained".toList
  | noOperator tokens =>
      "Expression wasn't valid, no operators found in subexpression \"".toList ++ tokens ++ ['"']
  | badNumber literal => "Invalid number literal: ".toList ++ literal
  | nestedTooDeeply limit =>
      "Expression nested deeper than the limit of ".toList ++ Text.ofNat limit
  | chainedTooLong limit =>
      "Expression chains more than ".toList ++ Text.ofNat limit ++ " operators on one path".toList

end Calculator
