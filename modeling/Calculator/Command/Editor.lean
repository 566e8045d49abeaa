/-
Module: Calculator.Command.Editor
Layer: Program
Purpose: The reader of lines that the program puts in at the prompt. It edits each line as its
  backspaces ask: a backspace erases the cluster before it, whole. The bytes of each cluster are kept
  in a count of one byte, so of a cluster of 256 bytes or more only the remainder is erased, and that
  may end inside a character: then no line is left to go on with.
Imports: Calculator.Command.Run, Calculator.Text.Cluster.Basic
Trusted boundary: the whole editor, which stands for code outside the program; no result on sessions
  uses it
Main exports: Editor.TypedLine, Editor.edited, Editor.reader, Editor.reader_of_not_mem
-/
import Calculator.Command.Run
import Calculator.Text.Cluster.Basic

namespace Calculator.Editor

/-- Drops characters that take up so many bytes from the start of a text; none if the bytes end
    inside a character. -/
def dropBytes : Nat → Text → Option Text
  | 0, text => some text
  | _ + 1, [] => none
  | n + 1, c :: rest => if c.utf8Size ≤ n + 1 then dropBytes (n + 1 - c.utf8Size) rest else none

/-- A line as far as it has been typed. -/
structure TypedLine where
  /-- The characters, the last one first. -/
  characters : Text := []
  /-- The counts of bytes of the clusters, the last one first. -/
  counts : List Nat := []
  deriving DecidableEq, Repr

namespace TypedLine

/-- Takes one cluster: a backspace erases, all else is added. At the start of a line there is
    nothing to erase. -/
def add (line : TypedLine) (cluster : Text) : Option TypedLine :=
  if cluster = ['\x08'] then
    match line.counts with
    | [] => some line
    | count :: counts =>
        (dropBytes count line.characters).map fun characters => { characters, counts }
  else
    some
      { characters := cluster.reverse ++ line.characters
        counts := Text.utf8Length cluster % 256 :: line.counts }

/-- Takes clusters one after another. -/
def addAll (line : TypedLine) : List Text → Option TypedLine
  | [] => some line
  | cluster :: clusters =>
      match line.add cluster with
      | none => none
      | some next => next.addAll clusters

theorem characters_addAll {line : TypedLine} {clusters : List Text}
    (h : ∀ cluster ∈ clusters, cluster ≠ ['\x08']) :
    (line.addAll clusters).map characters =
      some (clusters.flatten.reverse ++ line.characters) := by
  induction clusters generalizing line with
  | nil => simp [addAll]
  | cons cluster clusters ih =>
    have hrest : ∀ cluster ∈ clusters, cluster ≠ ['\x08'] :=
      fun other hother => h other (List.mem_cons_of_mem _ hother)
    simp [addAll, add, h cluster List.mem_cons_self, ih hrest]

end TypedLine

/-- What is left of a line after its backspaces. -/
def edited (line : Text) : Option Text :=
  (TypedLine.addAll {} (Text.clusters line)).map fun line => line.characters.reverse

/-- A line without backspaces stays as it is. -/
theorem edited_eq_some {line : Text} (h : '\x08' ∉ line) : edited line = some line := by
  have hclusters : ∀ cluster ∈ Text.clusters line, cluster ≠ ['\x08'] := by
    rintro _ hmem rfl
    apply h
    rw [← Text.flatten_clusters line]
    exact List.mem_flatten.2 ⟨_, hmem, List.mem_singleton_self _⟩
  have htyped := @TypedLine.characters_addAll {} _ hclusters
  obtain ⟨typed, htyped, hcharacters⟩ := Option.map_eq_some_iff.1 htyped
  rw [edited, htyped, Option.map_some, hcharacters, Text.flatten_clusters]
  simp

/-- Why a line cannot be edited. -/
def breakdown : Text := "a backspace would cut a character in two".toList

/-- Hands over a line as its backspaces leave it. -/
def read (line : Text) : Command.LineRead :=
  match edited line with
  | some typed => .line typed
  | none => .fault breakdown

/-- The reader of lines at the prompt. -/
def reader : Command.LineReader := fun input => .ok ((Text.lines input).map read)

/-- A text without backspaces is handed over line by line as it stands. -/
theorem reader_of_not_mem {input : Text} (h : ∀ line ∈ Text.lines input, '\x08' ∉ line) :
    reader input = .ok ((Text.lines input).map .line) := by
  have hlines : (Text.lines input).map read = (Text.lines input).map .line := by
    apply List.map_congr_left
    intro line hline
    rw [read, edited_eq_some (h line hline)]
  rw [reader, hlines]

end Calculator.Editor
