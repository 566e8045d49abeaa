/-
Module: Calculator.Main
Layer: Program
Purpose: The program itself. It passes the command line, the contents of a file or the lines of the
  standard input to the pure part, prints what comes back and exits with its status.
Imports: Calculator.Command.Editor
Trusted boundary: the system's answers about files, the editor of lines at the prompt
Main exports: main
-/
import Calculator.Command.Editor

namespace Calculator.Program

open Command

/-- Prints the lines of an answer. -/
def printLines (lines : List Text) : IO Unit := do
  let stdout ← IO.getStdout
  stdout.putStr (String.ofList (Text.unlines lines))
  stdout.flush

/-- The fault behind a failure of the system. -/
def faultOf : IO.Error → ReadFault
  | .noFileOrDirectory .. => .missing
  | .inappropriateType _ code _ => if code = 21 then .isADirectory else .notADirectory
  | .permissionDenied .. => .refused "Permission denied".toList 13
  | error => .refused (toString error).toList 5

/-- The contents of the file at a path. -/
def contentsOf (path : Text) : IO (Except ReadFault Text) := do
  try
    let bytes ← IO.FS.readBinFile (String.ofList path)
    return decodeUtf8 bytes
  catch error =>
    return .error (faultOf error)

/-- Answers the lines of the standard input until it ends or a line ends the session, and tells how
    the session ended; or no line can be edited any more. -/
partial def talk (settings : Settings) : IO (Option Ending) := do
  let line ← (← IO.getStdin).getLine
  match Text.lines line.toList with
  | [] => return some .success
  | text :: _ =>
      match Editor.edited text with
      | none => return none
      | some typed =>
          match reply settings (.line typed) with
          | .close ending => return some ending
          | .answer answer =>
              printLines answer
              talk settings

/-- Prints what a run has to say, and gives its exit status. -/
def conclude (outcome : Outcome) : IO UInt32 := do
  printLines outcome.output
  if let some line := outcome.errorLine then IO.eprintln (String.ofList line)
  match outcome.ending with
  | .misuse _ => IO.eprintln "error: invalid arguments, try '--help'"
  | _ => pure ()
  return UInt32.ofNat outcome.status

end Calculator.Program

open Calculator Calculator.Program Calculator.Command in
/-- Runs the program on its command line. -/
def main (arguments : List String) : IO UInt32 := do
  match start (arguments.map String.toList) with
  | .error outcome => conclude outcome
  | .ok options =>
      match options.source with
      | .words text => conclude (runWords options.settings text)
      | .file path => conclude (runFile options.settings path (← contentsOf path))
      | .prompt =>
          match ← talk options.settings with
          | some ending => conclude ⟨[], ending⟩
          | none =>
              IO.eprintln (String.ofList ("error: ".toList ++ Editor.breakdown))
              return 101
