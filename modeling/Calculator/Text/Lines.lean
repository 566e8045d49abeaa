/-
Module: Calculator.Text.Lines
Layer: Text
Purpose: The lines of a text and the text of a list of lines. A line ends at a line feed, and the
  last line may lack one. A carriage return is an ordinary character here: it is blank, so the
  callers that trim their lines never see one at an end.
Imports: Calculator.Text.Blank
Trusted boundary: none
Main exports: Text.lines, Text.unlines, Text.entries
-/
import Calculator.Text.Blank

namespace Calculator.Text

/-- The lines of a text. An empty text has none, and a final line feed opens no further line. -/
def lines : Text → List Text
  | [] => []
  | c :: rest =>
      if c = '\n' then [] :: lines rest
      else
        match lines rest with
        | [] => [[c]]
        | line :: more => (c :: line) :: more

/-- Each line followed by a line feed. -/
def unlines (ls : List Text) : Text := ls.flatMap fun line => line ++ ['\n']

/-- The lines of a text that hold something, each without the blanks around it. -/
def entries (text : Text) : List Text :=
  ((lines text).map trim).filter fun line => !line.isEmpty

end Calculator.Text
