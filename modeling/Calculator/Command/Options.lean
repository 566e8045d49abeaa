/-
Module: Calculator.Command.Options
Layer: Program
Purpose: What a command line asks for. The words are taken from left to right; the value of an
  option that stands in a word of its own is checked only when the next option or word is taken, so
  a word that is no valid option at all is reported before the value in front of it.
Imports: Calculator.Command.Argument, Calculator.Report
Trusted boundary: none
Main exports: LogLevel, Source, Options, UsageError, Halt, Options.ofArguments
-/
import Calculator.Command.Argument
import Calculator.Report

namespace Calculator.Command

/-- How much is logged. -/
inductive LogLevel where
  | error
  | warn
  | info
  | debug
  | trace
  deriving DecidableEq, Repr

/-- The level with the given name. -/
def LogLevel.ofText? (text : Text) : Option LogLevel :=
  if text = "error".toList then some error
  else if text = "warn".toList then some warn
  else if text = "info".toList then some info
  else if text = "debug".toList then some debug
  else if text = "trace".toList then some trace
  else none

/-- Where the expressions come from. -/
inductive Source where
  /-- Lines typed at the prompt. -/
  | prompt
  /-- The words of the command line, joined by spaces. -/
  | words (text : Text)
  /-- The lines of a file. -/
  | file (path : Text)
  deriving DecidableEq, Repr

/-- What a command line asks for. -/
structure Options where
  source : Source
  logLevel : LogLevel
  settings : Settings
  deriving DecidableEq, Repr

/-- Why a command line asks for nothing that can be done. -/
inductive UsageError where
  | unknownOption (text : Text)
  | missingValue (name : Parameter)
  | emptyPath
  | unknownLogLevel (value : Text)
  | badLimit (value : Text)
  | repeatedParameter (name : Parameter)
  | repeatedSwitch (name : Switch)
  | fileAndWords
  | unwantedValue (name : Switch)
  deriving DecidableEq, Repr

/-- Why the reading of a command line ends early. -/
inductive Halt where
  | help
  | version
  | misuse (error : UsageError)
  deriving DecidableEq, Repr

/-- A limit: digits behind an optional plus sign, below 2^64. -/
def limit? (text : Text) : Option Nat :=
  let digits :=
    match text with
    | '+' :: rest => rest
    | _ => text
  let value := Numeral.digitsValue digits
  if !digits.isEmpty && digits.all Char.isDigit && value < 0x10000000000000000 then some value
  else none

/-! ### Options in the making -/

/-- What the words taken so far ask for. -/
structure Draft where
  words : List Text := []
  file : Option Text := none
  logLevel : Option LogLevel := none
  maxDepth : Option Nat := none
  maxTreeDepth : Option Nat := none
  latex : Bool := false
  /-- An option whose value is not yet checked, and the value if it has been met. -/
  pending : Option (Parameter × Option Text) := none
  deriving DecidableEq, Repr

namespace Draft

/-- Whether an option has a value already. -/
def has (draft : Draft) : Parameter → Bool
  | .file => draft.file.isSome
  | .logLevel => draft.logLevel.isSome
  | .maxDepth => draft.maxDepth.isSome
  | .maxTreeDepth => draft.maxTreeDepth.isSome

/-- Gives an option its value. Options are given once. -/
def assign (draft : Draft) (name : Parameter) (value : Text) : Except UsageError Draft :=
  if draft.has name then .error (.repeatedParameter name)
  else
    match name with
    | .file =>
        if value.isEmpty then .error .emptyPath else .ok { draft with file := some value }
    | .logLevel =>
        match LogLevel.ofText? value with
        | some level => .ok { draft with logLevel := some level }
        | none => .error (.unknownLogLevel value)
    | .maxDepth =>
        match limit? value with
        | some limit => .ok { draft with maxDepth := some limit }
        | none => .error (.badLimit value)
    | .maxTreeDepth =>
        match limit? value with
        | some limit => .ok { draft with maxTreeDepth := some limit }
        | none => .error (.badLimit value)

/-- Checks the value of the pending option, which must have been met. -/
def settle (draft : Draft) : Except UsageError Draft :=
  match draft.pending with
  | none => .ok draft
  | some (name, none) => .error (.missingValue name)
  | some (name, some value) => { draft with pending := none }.assign name value

/-- Takes one word. A pending option that still lacks its value takes any word that is no option. -/
def take (draft : Draft) : Argument → Except Halt Draft
  | .word text =>
      match draft.pending with
      | some (name, none) => .ok { draft with pending := some (name, some text) }
      | _ => do
          let settled ← draft.settle.mapError .misuse
          return { settled with words := settled.words ++ [text] }
  | .parameter name none => do
      let settled ← draft.settle.mapError .misuse
      return { settled with pending := some (name, none) }
  | .parameter name (some value) => do
      let settled ← draft.settle.mapError .misuse
      (settled.assign name value).mapError .misuse
  | .switch name true => .error (.misuse (.unwantedValue name))
  | .switch name false => do
      let settled ← draft.settle.mapError .misuse
      match name with
      | .latex =>
          if settled.latex then .error (.misuse (.repeatedSwitch name))
          else return { settled with latex := true }
      | .help => .error .help
      | .version => .error .version
  | .unknown text => .error (.misuse (.unknownOption text))
  | .endOfOptions => draft.settle.mapError .misuse

/-- Takes words up to the mark that ends the options, and then all that follow it as they are. -/
def takeAll (draft : Draft) : List Text → Except Halt Draft
  | [] => draft.settle.mapError .misuse
  | text :: rest => do
      let argument := Argument.ofText text
      let next ← draft.take argument
      if argument = .endOfOptions then return { next with words := next.words ++ rest }
      else next.takeAll rest

/-- What the whole command line asks for. Expressions come from one source only. -/
def finish (draft : Draft) : Except UsageError Options :=
  let limits : Limits := {}
  let settings : Settings :=
    { limits :=
        { nesting := draft.maxDepth.getD limits.nesting
          chain := draft.maxTreeDepth.getD limits.chain }
      latex := draft.latex }
  let options (source : Source) : Options :=
    { source, logLevel := draft.logLevel.getD .warn, settings }
  match draft.file, draft.words with
  | some path, [] => .ok (options (.file path))
  | some _, _ :: _ => .error .fileAndWords
  | none, [] => .ok (options .prompt)
  | none, words => .ok (options (.words (Text.unwords words)))

end Draft

/-- Reads a command line, without the name of the program. -/
def Options.ofArguments (arguments : List Text) : Except Halt Options := do
  let draft ← Draft.takeAll {} arguments
  draft.finish.mapError .misuse

end Calculator.Command
