/-
Module: Calculator.Proofs.BatchReport
Layer: Proofs
Purpose: The report on a file says what happened to each of its lines. Every filled line has a block of
  its own, in the order of the file: one line that starts like an error, or the two or three lines for
  an expression, none of which does. No block runs over its lines, because messages quote one line of
  the file only, and the forms and values of expressions have no line feeds. So the failures can be
  counted from the output, and they are those which the end of the run names.
Imports: Calculator.Command.Run, Calculator.Proofs.CanonicalForm, Calculator.Proofs.Quotation,
  Mathlib.Data.List.Forall2
Trusted boundary: the results for the entries of a file are taken in the order of the entries, in
  whatever order they are found
Main exports: Text.mem_of_mem_lines, Text.lines_unlines, Text.filledLines, Text.IsAnswerLine,
  Report.isErrorLine, Report.Block, Report.block_ofText, Report.isRejected, Command.rejections,
  Command.runFile_report
-/
import Calculator.Command.Run
import Calculator.Proofs.CanonicalForm
import Calculator.Proofs.Quotation
import Mathlib.Data.List.Forall2

namespace Calculator

/-! ### Lines -/

namespace Text

/-- A line is made of characters of the text, but not of line feeds. -/
theorem mem_of_mem_lines {text line : Text} {c : Char} (hline : line ∈ lines text) (hc : c ∈ line) :
    c ∈ text ∧ c ≠ '\n' := by
  induction text generalizing line with
  | nil => cases hline
  | cons d rest ih =>
      have hrest : ∀ {line}, line ∈ lines rest → c ∈ line → c ∈ d :: rest ∧ c ≠ '\n' :=
        fun hline hc => ⟨List.mem_cons_of_mem d (ih hline hc).1, (ih hline hc).2⟩
      rw [lines] at hline
      split at hline
      · rcases List.mem_cons.1 hline with rfl | hline
        · cases hc
        · exact hrest hline hc
      · rename_i hd
        split at hline
        · rw [List.mem_singleton.1 hline, List.mem_singleton] at hc
          subst hc
          exact ⟨List.mem_cons_self, hd⟩
        · rename_i first more hlines
          rw [hlines] at hrest
          rcases List.mem_cons.1 hline with rfl | hline
          · rcases List.mem_cons.1 hc with rfl | hc
            · exact ⟨List.mem_cons_self, hd⟩
            · exact hrest List.mem_cons_self hc
          · exact hrest (List.mem_cons_of_mem first hline) hc

/-- No line goes on behind a line feed. -/
theorem newline_not_mem_of_mem_lines {text line : Text} (h : line ∈ lines text) : '\n' ∉ line :=
  fun hmem => (mem_of_mem_lines h hmem).2 rfl

/-- A line ends at the first line feed. -/
theorem lines_append_newline {line : Text} (h : '\n' ∉ line) (rest : Text) :
    lines (line ++ '\n' :: rest) = line :: lines rest := by
  induction line with
  | nil => rw [List.nil_append, lines, if_pos rfl]
  | cons c line ih =>
      obtain ⟨hc, hline⟩ := not_or.1 (mt List.mem_cons.2 h)
      rw [List.cons_append, lines, if_neg fun heq => hc heq.symm, ih hline]

/-- Lines are read back from the text in which each is followed by a line feed. -/
theorem lines_unlines {ls : List Text} (h : ∀ line ∈ ls, '\n' ∉ line) : lines (unlines ls) = ls := by
  induction ls with
  | nil => rfl
  | cons line ls ih =>
      obtain ⟨hline, hls⟩ := List.forall_mem_cons.1 h
      have htext : unlines (line :: ls) = line ++ '\n' :: unlines ls := by
        simp [unlines]
      rw [htext, lines_append_newline hline, ih hls]

/-- Trimming adds no characters. -/
theorem mem_of_mem_trim {text : Text} {c : Char} (h : c ∈ trim text) : c ∈ text := by
  rw [trim, trimEnd, trimStart, List.mem_reverse] at h
  have hstart := List.mem_reverse.1 ((List.dropWhile_sublist _).subset h)
  exact (List.dropWhile_sublist _).subset hstart

/-- The lines of a text that are not blank. -/
def filledLines (text : Text) : List Text := (lines text).filter fun line => !(trim line).isEmpty

/-- The entries are the filled lines, trimmed. -/
theorem entries_eq (text : Text) : entries text = (filledLines text).map trim := by
  rw [entries, filledLines, List.filter_map]
  rfl

/-- There are as many entries as filled lines. -/
theorem length_entries (text : Text) : (entries text).length = (filledLines text).length := by
  rw [entries_eq, List.length_map]

/-! ### Lines for expressions -/

/-- The text fits on one line, and does not start like an error. -/
structure IsAnswerLine (text : Text) : Prop where
  head : ∃ c rest, text = c :: rest ∧ c ≠ 'e'
  newline : '\n' ∉ text

/-- The first character tells the answer from an error, the rest only has to stay on the line. -/
theorem isAnswerLine_cons {c : Char} {rest : Text} (hhead : c ≠ 'e') (hc : '\n' ≠ c)
    (hrest : '\n' ∉ rest) : IsAnswerLine (c :: rest) :=
  ⟨⟨c, rest, rfl, hhead⟩, List.not_mem_cons_of_ne_of_not_mem hc hrest⟩

/-- What is written behind the start of an answer cannot make it an error. -/
theorem IsAnswerLine.append {text : Text} (h : IsAnswerLine text) {rest : Text} (hrest : '\n' ∉ rest) :
    IsAnswerLine (text ++ rest) := by
  obtain ⟨c, more, rfl, hc⟩ := h.head
  exact ⟨⟨c, more ++ rest, rfl, hc⟩, List.not_mem_append h.newline hrest⟩

/-- A literal starts with a digit, so it is no error. -/
theorem isAnswerLine_literal {literal : Text} (h : Numeral.IsLiteral literal) :
    IsAnswerLine literal := by
  obtain ⟨c, rest, hliteral, hdigit⟩ := h.head
  refine ⟨⟨c, rest, hliteral, ?_⟩, ?_⟩
  · rintro rfl
    cases hdigit
  · intro hmem
    exact absurd (h.forall_mem _ hmem) (by decide)

end Text

open Text (IsAnswerLine isAnswerLine_cons isAnswerLine_literal)

namespace Binary64

/-- The text of a magnitude is a literal or the word for infinity. -/
theorem isAnswerLine_magnitudeText (magnitude : Nat) : IsAnswerLine (magnitudeText magnitude) := by
  rcases magnitudeText_eq magnitude with h | h
  · rw [h]
    exact isAnswerLine_cons (by decide) (by decide) (by decide)
  · exact isAnswerLine_literal h

/-- The text of a number starts with a digit, a sign, an `i` or an `N`. -/
theorem isAnswerLine_toText (x : Binary64) : IsAnswerLine x.toText := by
  have hmagnitude := isAnswerLine_magnitudeText x.magnitude
  unfold toText
  split
  · exact isAnswerLine_cons (by decide) (by decide) (by decide)
  · split
    · exact isAnswerLine_cons (by decide) (by decide) hmagnitude.newline
    · exact hmagnitude

/-- A number in LaTeX starts with a digit, a sign or a command. -/
theorem isAnswerLine_latex (x : Binary64) : IsAnswerLine x.latex := by
  unfold latex
  split
  · rename_i n _
    have hdigits := isAnswerLine_literal (.whole (Numeral.isRow_ofNat n))
    split
    · exact isAnswerLine_cons (by decide) (by decide) hdigits.newline
    · exact hdigits
  · split
    · exact ⟨⟨_, _, rfl, by decide⟩, by decide⟩
    · split
      · split
        · exact ⟨⟨_, _, rfl, by decide⟩, by decide⟩
        · exact ⟨⟨_, _, rfl, by decide⟩, by decide⟩
      · exact x.isAnswerLine_toText

end Binary64

namespace Expr

theorem newline_ne_symbol (op : Operator) : '\n' ≠ op.symbol := by
  cases op <;> decide

/-- A canonical form starts with a bracket or with a number. -/
theorem isAnswerLine_canonical (t : Expr) : IsAnswerLine t.canonical := by
  induction t with
  | number x => exact x.isAnswerLine_toText
  | binary left op right ihleft ihright =>
      have hright : '\n' ∉ ' ' :: (right.canonical ++ [')']) :=
        List.not_mem_cons_of_ne_of_not_mem (by decide) (List.not_mem_append ihright.newline (by decide))
      have hop : '\n' ∉ ' ' :: op.symbol :: ' ' :: (right.canonical ++ [')']) :=
        List.not_mem_cons_of_ne_of_not_mem (by decide)
          (List.not_mem_cons_of_ne_of_not_mem (newline_ne_symbol op) hright)
      exact isAnswerLine_cons (by decide) (by decide) (List.not_mem_append ihleft.newline hop)

/-- Brackets in LaTeX start with a command. -/
theorem isAnswerLine_bracketedIf (condition : Bool) {text : Text} (h : IsAnswerLine text) :
    IsAnswerLine (bracketedIf condition text) := by
  cases condition with
  | true => exact ⟨⟨_, _, rfl, by decide⟩, Text.not_mem_around (by decide) h.newline (by decide)⟩
  | false => exact h

theorem newline_not_mem_argument {text : Text} (h : '\n' ∉ text) : '\n' ∉ argument text :=
  List.not_mem_cons_of_ne_of_not_mem (by decide) (List.not_mem_append h (by decide))

/-- A LaTeX form starts with a command, a bracket or a number. -/
theorem isAnswerLine_latex (t : Expr) : IsAnswerLine t.latex := by
  induction t with
  | number x => exact x.isAnswerLine_latex
  | binary left op right ihleft ihright =>
      have hright := isAnswerLine_bracketedIf right.isSum ihright
      cases op with
      | add => exact (ihleft.append (by decide)).append ihright.newline
      | sub => exact (ihleft.append (by decide)).append hright.newline
      | mul =>
          have hleft := isAnswerLine_bracketedIf left.isSum ihleft
          exact (hleft.append (by decide)).append hright.newline
      | div =>
          have hfraction : IsAnswerLine "\\frac".toList := ⟨⟨_, _, rfl, by decide⟩, by decide⟩
          exact (hfraction.append (newline_not_mem_argument ihleft.newline)).append
            (newline_not_mem_argument ihright.newline)
      | pow =>
          have hexponent := newline_not_mem_argument ihright.newline
          exact (isAnswerLine_bracketedIf (!left.isNumber) ihleft).append
            (List.not_mem_cons_of_ne_of_not_mem (by decide) hexponent)

end Expr

/-! ### Blocks -/

namespace Report

/-- Whether a line of output starts like an error. -/
def isErrorLine (line : Text) : Bool := "error: ".toList.isPrefixOf line

/-- How many lines an expression is shown on. -/
def height (settings : Settings) : Nat := if settings.latex then 3 else 2

/-- The lines are those of a block for the entry: one that starts like an error if the entry is no
    expression, and otherwise as many as an expression has, none of which starts like an error. -/
inductive Block (settings : Settings) (entry : Text) : List Text → Prop where
  | rejected {error : ParseError} {line : Text} :
      Parse.parse settings.limits entry = .error error → isErrorLine line = true →
        Block settings entry [line]
  | accepted {expr : Expr} {block : List Text} :
      Parse.parse settings.limits entry = .ok expr → block.length = height settings →
        (∀ line ∈ block, isErrorLine line = false) → Block settings entry block

/-- No answer starts like an error. -/
theorem isErrorLine_of_isAnswerLine {line : Text} (h : IsAnswerLine line) : isErrorLine line = false := by
  obtain ⟨c, rest, rfl, hc⟩ := h.head
  have hhead : ('e' == c) = false := beq_false_of_ne fun heq => hc heq.symm
  have hlead : "error: ".toList = 'e' :: "rror: ".toList := rfl
  rw [isErrorLine, hlead, List.isPrefixOf, hhead, Bool.false_and]

/-- Every line on which an expression is shown is an answer. -/
theorem isAnswerLine_of_mem_ofExpr {settings : Settings} {expr : Expr} {line : Text}
    (h : line ∈ ofExpr settings expr) : IsAnswerLine line := by
  have hall : line = expr.canonical ∨ line = expr.latex ∨ line = expr.value.toText := by
    unfold ofExpr at h
    split at h
    · simpa using h
    · rcases List.mem_pair.1 h with h | h
      · exact Or.inl h
      · exact Or.inr (Or.inr h)
  rcases hall with rfl | rfl | rfl
  · exact expr.isAnswerLine_canonical
  · exact expr.isAnswerLine_latex
  · exact expr.value.isAnswerLine_toText

/-- What is shown for an entry is a block for it: the error of a rejected entry, the lines of any
    other. -/
theorem block_ofText (settings : Settings) (entry : Text) :
    Block settings entry (ofText settings entry) := by
  cases hparse : Parse.parse settings.limits entry with
  | error error =>
      rw [ofText, hparse]
      refine .rejected hparse ?_
      exact List.isPrefixOf_iff_prefix.2 (List.prefix_append _ _)
  | ok expr =>
      rw [ofText, hparse]
      refine .accepted hparse ?_ ?_
      · rw [ofResult, ofExpr, height]
        split <;> rfl
      · intro line hline
        exact isErrorLine_of_isAnswerLine (isAnswerLine_of_mem_ofExpr hline)

/-- A block for an entry on one line has no line feeds inside its lines. -/
theorem newline_not_mem_ofText {settings : Settings} {entry line : Text} (hentry : '\n' ∉ entry)
    (h : line ∈ ofText settings entry) : '\n' ∉ line := by
  cases hparse : Parse.parse settings.limits entry with
  | error error =>
      rw [ofText, hparse] at h
      rw [List.mem_singleton.1 h]
      have hquoted : '\n' ∉ error.quoted := by
        intro hmem
        rcases Parse.quoted_of_parse_error hparse hmem with hmem | hspace
        · exact hentry hmem
        · exact absurd hspace (by decide)
      exact List.not_mem_append (by decide) (ParseError.newline_not_mem_message hquoted)
  | ok expr =>
      rw [ofText, hparse] at h
      exact (isAnswerLine_of_mem_ofExpr h).newline

/-- Whether an entry is no expression. -/
def isRejected (settings : Settings) (entry : Text) : Bool :=
  Command.isFailure (Parse.parse settings.limits entry)

namespace Block

variable {settings : Settings}

/-- In a block, only the line of a rejected entry starts like an error. -/
theorem countP_isErrorLine {entry : Text} {block : List Text} (h : Block settings entry block) :
    block.countP isErrorLine = if isRejected settings entry then 1 else 0 := by
  cases h with
  | rejected hparse hline => simp [isRejected, Command.isFailure, hparse, hline]
  | accepted hparse _ hlines =>
      have hnone : block.countP isErrorLine = 0 := by
        apply List.countP_eq_zero.2
        intro line hline
        rw [hlines line hline]
        exact Bool.false_ne_true
      rw [hnone, isRejected, hparse]
      rfl

/-- The height of a block depends on no more than whether its entry is rejected. -/
theorem length_eq {entry : Text} {block : List Text} (h : Block settings entry block) :
    block.length = if isRejected settings entry then 1 else height settings := by
  cases h with
  | rejected hparse _ =>
      rw [isRejected, hparse]
      rfl
  | accepted hparse hlength _ =>
      rw [hlength, isRejected, hparse]
      rfl

variable {entries : List Text} {blocks : List (List Text)}

/-- The lines that start like an error are as many as the entries that are no expressions. -/
theorem countP_flatten (h : List.Forall₂ (Block settings) entries blocks) :
    blocks.flatten.countP isErrorLine = entries.countP (isRejected settings) := by
  induction h with
  | nil => rfl
  | cons hblock _ ih =>
      rw [List.flatten_cons, List.countP_append, ih, hblock.countP_isErrorLine, List.countP_cons,
        Nat.add_comm]

/-- Each entry that is no expression takes one line, and all others as many as an expression has. -/
theorem length_flatten (h : List.Forall₂ (Block settings) entries blocks) :
    blocks.flatten.length = entries.countP (isRejected settings) +
      height settings * (entries.length - entries.countP (isRejected settings)) := by
  induction h with
  | nil => rfl
  | @cons entry block entries blocks hblock _ ih =>
      have hle : entries.countP (isRejected settings) ≤ entries.length := List.countP_le_length
      rw [List.flatten_cons, List.length_append, hblock.length_eq, ih, List.countP_cons,
        List.length_cons]
      cases isRejected settings entry with
      | true =>
          have hothers : entries.length + 1 - (entries.countP (isRejected settings) + 1) =
              entries.length - entries.countP (isRejected settings) := by omega
          simp only [if_true, hothers]
          omega
      | false =>
          have hothers : entries.length + 1 - (entries.countP (isRejected settings) + 0) =
              entries.length - entries.countP (isRejected settings) + 1 := by omega
          simp only [Bool.false_eq_true, if_false, hothers, Nat.mul_add, Nat.mul_one]
          omega

end Block

end Report

/-! ### Files -/

namespace Command

open Report (Block isErrorLine isRejected)

/-- An entry is a part of one line. -/
theorem newline_not_mem_entry {text entry : Text} (h : entry ∈ Text.entries text) : '\n' ∉ entry := by
  obtain ⟨line, hline, rfl⟩ := List.mem_map.1 (List.mem_filter.1 h).1
  exact fun hmem => Text.newline_not_mem_of_mem_lines hline (Text.mem_of_mem_trim hmem)

/-- The output for a text is the concatenation of what is shown for its entries, in their order. -/
theorem output_runEntries (settings : Settings) (text : Text) :
    (runEntries settings text).output = ((Text.entries text).map (Report.ofText settings)).flatten := by
  rw [runEntries, List.flatMap_map, List.flatMap_def]
  rfl

/-- The lines of output are those of the blocks, also after they have been joined and split. -/
theorem lines_output_runEntries (settings : Settings) (text : Text) :
    Text.lines (Text.unlines (runEntries settings text).output) =
      ((Text.entries text).map (Report.ofText settings)).flatten := by
  rw [output_runEntries]
  apply Text.lines_unlines
  intro line hline
  obtain ⟨block, hblock, hline⟩ := List.mem_flatten.1 hline
  obtain ⟨entry, hentry, rfl⟩ := List.mem_map.1 hblock
  exact Report.newline_not_mem_ofText (newline_not_mem_entry hentry) hline

/-- Each entry has its block. -/
theorem forall₂_block (settings : Settings) (entries : List Text) :
    List.Forall₂ (Block settings) entries (entries.map (Report.ofText settings)) := by
  induction entries with
  | nil => exact .nil
  | cons entry entries ih => exact .cons (Report.block_ofText settings entry) ih

/-- How many of the filled lines of a text are no expressions. -/
def rejections (settings : Settings) (text : Text) : Nat :=
  (Text.filledLines text).countP fun line => isRejected settings (Text.trim line)

/-- Counted among the filled lines or among the entries, the rejected ones are as many. -/
theorem rejections_eq (settings : Settings) (text : Text) :
    rejections settings text = (Text.entries text).countP (isRejected settings) := by
  rw [rejections, Text.entries_eq, List.countP_map]
  rfl

/-- A run ends well exactly if no filled line is rejected, and a failure tells how many are. -/
theorem ending_runEntries (settings : Settings) (text : Text) :
    (runEntries settings text).ending =
      if rejections settings text = 0 then .success
      else .failure (Text.ofNat (rejections settings text) ++ " of ".toList ++
        Text.ofNat (Text.filledLines text).length ++ " expressions failed".toList) := by
  have hcount : ((Text.entries text).map (Parse.parse settings.limits)).countP isFailure =
      rejections settings text := by
    rw [rejections_eq, List.countP_map]
    rfl
  simp only [runEntries, hcount, List.length_map, Text.length_entries]

/-- The output for a file, split into lines, has one block for each filled line of the file, in their
    order. So the lines that start like an error count the lines of the file that are no expressions,
    and the run fails, with that count, if there are any. -/
theorem runFile_report (settings : Settings) (path text : Text) :
    let outcome := runFile settings path (.ok text)
    let printed := Text.lines (Text.unlines outcome.output)
    let filled := Text.filledLines text
    let failed := rejections settings text
    (∃ blocks, List.Forall₂ (fun line => Block settings (Text.trim line)) filled blocks ∧
        printed = blocks.flatten) ∧
      printed.countP isErrorLine = failed ∧
      printed.length = failed + Report.height settings * (filled.length - failed) ∧
      outcome.ending =
        if failed = 0 then .success
        else .failure (Text.ofNat failed ++ " of ".toList ++ Text.ofNat filled.length ++
          " expressions failed".toList) := by
  have hblocks := forall₂_block settings (Text.entries text)
  have hprinted := lines_output_runEntries settings text
  refine ⟨⟨(Text.entries text).map (Report.ofText settings), ?_, hprinted⟩, ?_, ?_,
    ending_runEntries settings text⟩
  · rw [Text.entries_eq] at hblocks ⊢
    exact List.forall₂_map_left_iff.1 hblocks
  · rw [rejections_eq, ← Block.countP_flatten hblocks, ← hprinted]
    rfl
  · rw [rejections_eq, ← Text.length_entries, ← Block.length_flatten hblocks, ← hprinted]
    rfl

end Command

end Calculator
