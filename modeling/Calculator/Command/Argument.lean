/-
Module: Calculator.Command.Argument
Layer: Program
Purpose: The words of a command line one by one: which of them are options, and with which value
  attached. Long options are spelled out in full and take a value behind an equals sign; short ones
  take the rest of their word, with or without an equals sign in front.
Imports: Calculator.Text.Basic
Trusted boundary: none
Main exports: Parameter, Switch, Argument, Argument.ofText
-/
import Calculator.Text.Basic

namespace Calculator.Command

/-- An option with a value. -/
inductive Parameter where
  /-- The file to read expressions from. -/
  | file
  /-- How much to log. -/
  | logLevel
  /-- The limit on nested brackets. -/
  | maxDepth
  /-- The limit on operators on one path. -/
  | maxTreeDepth
  deriving DecidableEq, Repr

/-- An option without a value. -/
inductive Switch where
  | latex
  | help
  | version
  deriving DecidableEq, Repr

/-- One word of a command line. -/
inductive Argument where
  /-- A word that is no option. -/
  | word (text : Text)
  /-- An option with a value, which may be attached to it. -/
  | parameter (name : Parameter) (attached : Option Text)
  /-- An option without a value, and whether a value is attached to it all the same. -/
  | switch (name : Switch) (attached : Bool)
  /-- An option that does not exist. -/
  | unknown (text : Text)
  /-- The mark behind which all is words. -/
  | endOfOptions
  deriving DecidableEq, Repr

namespace Argument

/-- A long option by its name and what is attached to it. -/
def ofLong (text name : Text) (attached : Option Text) : Argument :=
  if name = "file".toList then .parameter .file attached
  else if name = "log-level".toList then .parameter .logLevel attached
  else if name = "max-depth".toList then .parameter .maxDepth attached
  else if name = "max-tree-depth".toList then .parameter .maxTreeDepth attached
  else if name = "latex".toList then .switch .latex attached.isSome
  else if name = "help".toList then .switch .help attached.isSome
  else if name = "version".toList then .switch .version attached.isSome
  else .unknown text

/-- The value in what follows the letter of a short option. -/
def shortValue : Text → Option Text
  | [] => none
  | '=' :: value => some value
  | value => some value

/-- A short option by its letter and the rest of its word. The letters of the switches end the run
    when they are met, so nothing behind them counts. -/
def ofShort (text : Text) (letter : Char) (rest : Text) : Argument :=
  if letter = 'f' then .parameter .file (shortValue rest)
  else if letter = 'l' then .parameter .logLevel (shortValue rest)
  else if letter = 'h' then .switch .help false
  else if letter = 'V' then .switch .version false
  else .unknown text

/-- What a word stands for. A lone dash is an ordinary word. -/
def ofText (text : Text) : Argument :=
  match text with
  | ['-', '-'] => .endOfOptions
  | '-' :: '-' :: body =>
      match body.dropWhile (· ≠ '=') with
      | [] => ofLong text body none
      | _ :: value => ofLong text (body.takeWhile (· ≠ '=')) (some value)
  | '-' :: letter :: rest => ofShort text letter rest
  | _ => .word text

end Argument

end Calculator.Command
