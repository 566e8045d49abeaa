/-
Module: Calculator.Command.Run
Layer: Program
Purpose: What a run of the program prints and how it ends, for each source of expressions. The
  contents of files and of the standard input come in as arguments, and so does the reader that
  makes lines for the prompt of the standard input, so all of this is pure.
Imports: Calculator.Command.Options, Calculator.Text.Lines
Trusted boundary: the reader of lines, which is a parameter of a session at the prompt; the entries
  of a file may be evaluated in any order, but their results are taken in the order of the entries
Main exports: ReadFault, Ending, Outcome, Command.start, Command.runWords, Command.runFile,
  LineRead, LineReader, Reply, Command.reply, Command.runPrompt, Command.run
-/
import Calculator.Command.Options
import Calculator.Text.Lines

namespace Calculator.Command

/-- Why a file has no text. -/
inductive ReadFault where
  /-- The system refuses to read the file. -/
  | refused (reason : Text) (code : Nat)
  /-- The bytes of the file encode no text. -/
  | notUtf8
  deriving DecidableEq, Repr

namespace ReadFault

def missing : ReadFault := refused "No such file or directory".toList 2

def notADirectory : ReadFault := refused "Not a directory".toList 20

def isADirectory : ReadFault := refused "Is a directory".toList 21

def nameTooLong : ReadFault := refused "File name too long".toList 36

/-- The wording of a fault. -/
def message : ReadFault → Text
  | refused reason code => reason ++ " (os error ".toList ++ Text.ofNat code ++ [')']
  | notUtf8 => "stream did not contain valid UTF-8".toList

end ReadFault

/-- The text that bytes encode. -/
def decodeUtf8 (bytes : ByteArray) : Except ReadFault Text :=
  match String.fromUTF8? bytes with
  | some string => .ok string.toList
  | none => .error .notUtf8

/-- How a run ends. -/
inductive Ending where
  | success
  /-- The run could not do all it was asked for. -/
  | failure (message : Text)
  /-- The command line was at fault. -/
  | misuse (error : UsageError)
  deriving DecidableEq, Repr

/-- A run of the program. -/
structure Outcome where
  /-- The lines printed. -/
  output : List Text
  ending : Ending
  deriving DecidableEq, Repr

namespace Outcome

/-- The exit status of a run. -/
def status (outcome : Outcome) : Nat :=
  match outcome.ending with
  | .success => 0
  | .failure _ => 1
  | .misuse _ => 2

/-- The line a failed run leaves on the standard error. -/
def errorLine (outcome : Outcome) : Option Text :=
  match outcome.ending with
  | .failure message => some ("Error: ".toList ++ message)
  | _ => none

end Outcome

/-- The line that names the program and its version. -/
def versionLine : Text := "exprtree 0.1.0".toList

/-- The lines that say how to call the program. -/
def helpLines : List Text :=
  ["Parse arithmetic expressions into a fully bracketed tree and evaluate them".toList,
   [],
   "Usage: exprtree [OPTIONS] [EXPRESSION]...".toList,
   [],
   "  -f, --file <PATH>          read expressions from a file, one on each line".toList,
   "  -l, --log-level <LEVEL>    error, warn, info, debug or trace".toList,
   "      --max-depth <N>        limit on nested brackets".toList,
   "      --max-tree-depth <N>   limit on operators on one path".toList,
   "      --latex                show the LaTeX form too".toList,
   "  -h, --help                 show this text".toList,
   "  -V, --version              show the version".toList]

/-- Reads the command line: what to run, or how the run is over already. -/
def start (arguments : List Text) : Except Outcome Options :=
  match Options.ofArguments arguments with
  | .error .help => .error ⟨helpLines, .success⟩
  | .error .version => .error ⟨[versionLine], .success⟩
  | .error (.misuse error) => .error ⟨[], .misuse error⟩
  | .ok options =>
      if options.settings.limits.nesting = 0 then
        .error ⟨[], .failure "--max-depth must be at least 1".toList⟩
      else .ok options

/-! ### The three sources -/

/-- Evaluates the words of the command line. -/
def runWords (settings : Settings) (text : Text) : Outcome :=
  match Parse.parse settings.limits text with
  | .ok expr => ⟨Report.ofExpr settings expr, .success⟩
  | .error error =>
      ⟨[], .failure ("Failed to evaluate '".toList ++ text ++ "': ".toList ++ error.message)⟩

/-- Whether reading a text failed. -/
def isFailure : Except ParseError Expr → Bool
  | .ok _ => false
  | .error _ => true

/-- Evaluates every entry of a text and counts those that are no expressions. -/
def runEntries (settings : Settings) (text : Text) : Outcome :=
  let results := (Text.entries text).map (Parse.parse settings.limits)
  let failures := results.countP isFailure
  { output := results.flatMap (Report.ofResult settings)
    ending :=
      if failures = 0 then .success
      else
        .failure (Text.ofNat failures ++ " of ".toList ++ Text.ofNat results.length ++
          " expressions failed".toList) }

/-- Evaluates the entries of a file. -/
def runFile (settings : Settings) (path : Text) (contents : Except ReadFault Text) : Outcome :=
  match contents with
  | .ok text => runEntries settings text
  | .error fault =>
      ⟨[], .failure ("Failed to read '".toList ++ path ++ "': ".toList ++ fault.message)⟩

/-! ### The prompt -/

/-- What the reader of lines hands over when it is asked for a line. -/
inductive LineRead where
  | line (text : Text)
  /-- The line was given up before its end. -/
  | interrupted
  /-- No line can be read. -/
  | fault (reason : Text)
  deriving DecidableEq, Repr

/-- A reader of lines: what it hands over, call after call, for a text on the standard input, until it
    has come to the end of the text. Or it does not even start, and says why. -/
abbrev LineReader := Text → Except Text (List LineRead)

/-- Whether an entry ends a session at the prompt. -/
def isFarewell (entry : Text) : Bool := entry = "quit".toList || entry = "exit".toList

/-- What a line at the prompt leads to. -/
inductive Reply where
  /-- Lines to print. -/
  | answer (lines : List Text)
  /-- The end of the session. -/
  | close (ending : Ending)
  deriving DecidableEq, Repr

/-- The reply to an entry at the prompt. -/
def replyTo (settings : Settings) (entry : Text) : Reply :=
  if entry.isEmpty then .answer []
  else if isFarewell entry then .close .success
  else .answer (Report.ofText settings entry)

/-- The reply to what the reader of lines hands over. -/
def reply (settings : Settings) : LineRead → Reply
  | .line text => replyTo settings (Text.trim text)
  | .interrupted => .answer []
  | .fault reason => .close (.failure ("Failed to read input: ".toList ++ reason))

/-- A session over what the reader of lines hands over, up to the line that ends it. -/
def converse (settings : Settings) : List LineRead → Outcome
  | [] => ⟨[], .success⟩
  | read :: reads =>
      match reply settings read with
      | .close ending => ⟨[], ending⟩
      | .answer answer =>
          let rest := converse settings reads
          { rest with output := answer ++ rest.output }

/-- A session at the prompt. Entries that are no expressions do not spoil it. -/
def runPrompt (reader : LineReader) (settings : Settings) (input : Text) : Outcome :=
  match reader input with
  | .ok reads => converse settings reads
  | .error reason => ⟨[], .failure ("Failed to initialize line editor: ".toList ++ reason)⟩

/-! ### The whole program -/

/-- A whole run of the program on a command line, given the reader of lines, the contents of files by
    path and the text of the standard input. -/
def run (reader : LineReader) (arguments : List Text) (contents : Text → Except ReadFault Text)
    (input : Text) : Outcome :=
  match start arguments with
  | .error outcome => outcome
  | .ok options =>
      match options.source with
      | .words text => runWords options.settings text
      | .file path => runFile options.settings path (contents path)
      | .prompt => runPrompt reader options.settings input

end Calculator.Command
