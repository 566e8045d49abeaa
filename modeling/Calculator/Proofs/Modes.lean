/-
Module: Calculator.Proofs.Modes
Layer: Proofs
Purpose: The three sources of expressions lead to the same output. A session at the prompt answers line by
  line what the report on a file says of these lines, up to the line that ends the session, and ends well
  whatever the lines are. An expression among the words of the command line is shown as it would be on a
  line of its own, although its blanks are trimmed only there, as blanks at the ends of a text do not
  matter to the parser.
Imports: Calculator.Proofs.BatchReport, Calculator.Proofs.Grammar, Calculator.Proofs.Respacing
Trusted boundary: `Command.LineReader.HandsOver`, the one property of the reader of lines that is assumed
Main exports: Text.respaced_trim, Parse.parse_trim_eq_ok_iff, Parse.isWritable_of_parse,
  Command.ReadsAs, Command.LineReader.HandsOver, Command.openingText, Command.converse_eq,
  Command.modes_agree
-/
import Calculator.Proofs.BatchReport
import Calculator.Proofs.Grammar
import Calculator.Proofs.Respacing

namespace Calculator

namespace Text

/-! ### Lines -/

/-- A text without line feeds is one line, unless it is empty. -/
theorem lines_eq_singleton {line : Text} (hne : line ≠ []) (h : '\n' ∉ line) : lines line = [line] := by
  induction line with
  | nil => exact absurd rfl hne
  | cons c rest ih =>
      obtain ⟨hc, hrest⟩ := not_or.1 (mt List.mem_cons.2 h)
      rw [lines, if_neg fun heq => hc heq.symm]
      cases rest with
      | nil => rfl
      | cons d rest => rw [ih (List.cons_ne_nil d rest) hrest]

/-! ### Blanks at the ends of a text -/

theorem blanks_takeWhile (text : Text) : Blanks (text.takeWhile isBlank) :=
  fun _ hc => List.mem_takeWhile_imp hc

/-- Blanks are all that is trimmed at the start. -/
theorem exists_trimStart (text : Text) : ∃ gap, Blanks gap ∧ text = gap ++ trimStart text :=
  ⟨text.takeWhile isBlank, blanks_takeWhile text, List.takeWhile_append_dropWhile.symm⟩

/-- Blanks are all that is trimmed at the end. -/
theorem exists_trimEnd (text : Text) : ∃ gap, Blanks gap ∧ text = trimEnd text ++ gap := by
  obtain ⟨gap, hgap, htext⟩ := exists_trimStart text.reverse
  refine ⟨gap.reverse, fun c hc => hgap c (List.mem_reverse.1 hc), ?_⟩
  rw [trimEnd, ← List.reverse_append, ← htext, List.reverse_reverse]

/-- Blanks behind a text join nothing and separate nothing. -/
theorem respaced_append (text : Text) {gap : Text} (hgap : Blanks gap) : Respaced text (text ++ gap) := by
  have hend : ¬ Joined text [] := fun h => absurd h.2 Bool.false_ne_true
  simpa using respaced_insert hgap hend

theorem Blanks.dropWhile_eq_nil {gap : Text} (h : Blanks gap) : gap.dropWhile isBlank = [] :=
  List.dropWhile_eq_nil_iff.2 h

/-- Blanks behind a text are trimmed at its end. -/
theorem trimEnd_append (text : Text) {gap : Text} (hgap : Blanks gap) :
    trimEnd (text ++ gap) = trimEnd text := by
  have hreverse : Blanks gap.reverse := fun c hc => hgap c (List.mem_reverse.1 hc)
  rw [trimEnd, trimEnd, trimStart, trimStart, List.reverse_append, List.dropWhile_append,
    hreverse.dropWhile_eq_nil]
  rfl

/-- Blanks behind a text are trimmed with it, also if it has nothing but blanks. -/
theorem trim_append (text : Text) {gap : Text} (hgap : Blanks gap) : trim (text ++ gap) = trim text := by
  rw [trim, trim, ← trimEnd_append (trimStart text) hgap, trimStart, trimStart, List.dropWhile_append]
  split
  · rename_i hblank
    rw [hgap.dropWhile_eq_nil, List.isEmpty_iff.1 hblank]
    exact (trimEnd_append [] hgap).symm
  · rfl

/-- A text differs by blanks only from what is left when it is trimmed. -/
theorem respaced_trim (text : Text) : Respaced (trim text) text := by
  obtain ⟨before, hbefore, hstart⟩ := exists_trimStart text
  obtain ⟨behind, hbehind, hend⟩ := exists_trimEnd (trimStart text)
  have hnojoin : ¬ Joined [] (trimStart text) := fun h => absurd h.1 Bool.false_ne_true
  have hfirst := respaced_append (trim text) hbehind
  have hsecond := respaced_insert hbefore hnojoin
  rw [← hstart] at hsecond
  rw [trim, ← hend] at hfirst
  exact .trans _ _ _ hfirst hsecond

end Text

/-- Results that agree are the same success or are both none. -/
theorem Agree.ok_iff {ε α : Type} {kind : ε → ErrorKind} {first second : Except ε α}
    (h : Agree kind Eq first second) {a : α} : first = .ok a ↔ second = .ok a := by
  cases h with
  | ok heq => rw [heq]
  | error _ =>
      constructor
      · rintro ⟨⟩
      · rintro ⟨⟩

namespace Parse

/-- Which expression is read from a text does not depend on its blanks. -/
theorem parse_eq_ok_iff_of_respaced {limits : Limits} {text text' : Text} {t : Expr}
    (h : Text.Respaced text text') : parse limits text = .ok t ↔ parse limits text' = .ok t := by
  induction h with
  | rel _ _ hspaced => exact (parse_spaced limits hspaced).ok_iff
  | refl _ => exact Iff.rfl
  | symm _ _ _ ih => exact ih.symm
  | trans _ _ _ _ _ ih ih' => exact ih.trans ih'

/-- So a text may be trimmed before it is read. -/
theorem parse_trim_eq_ok_iff {limits : Limits} {text : Text} {t : Expr} :
    parse limits (Text.trim text) = .ok t ↔ parse limits text = .ok t :=
  parse_eq_ok_iff_of_respaced (Text.respaced_trim text)

end Parse

/-! ### The characters of expressions -/

/-- Whether a character occurs in expressions. -/
def Text.isWritable (c : Char) : Bool :=
  isBlank c || isNumeric c || c = '(' || c = ')' || (Operator.ofSymbol? c).isSome

open Text (isWritable)

theorem Text.isWritable_of_blanks {gap : Text} (h : Blanks gap) : ∀ c ∈ gap, isWritable c = true := by
  intro c hc
  simp [isWritable, h c hc]

/-- The texts of the grammar are written with these characters only. -/
theorem Grammar.Derives.isWritable {phrase : Phrase} {text : Text} {literals : List Text}
    (h : Derives phrase text literals) : ∀ c ∈ text, isWritable c = true := by
  induction h with
  | number hliteral =>
      intro c hc
      simp [Text.isWritable, Text.isNumeric, hliteral.forall_mem c hc]
  | bracket _ ih =>
      refine List.forall_mem_cons.2 ⟨by decide, List.forall_mem_append.2 ⟨ih, ?_⟩⟩
      exact List.forall_mem_singleton.2 (by decide)
  | single hbefore _ hbehind ih =>
      exact List.forall_mem_append.2 ⟨Text.isWritable_of_blanks hbefore,
        List.forall_mem_append.2 ⟨ih, Text.isWritable_of_blanks hbehind⟩⟩
  | chain op hbefore _ hbehind _ ih ihrest =>
      have hop : Text.isWritable op.symbol = true := by cases op <;> decide
      exact List.forall_mem_append.2 ⟨Text.isWritable_of_blanks hbefore,
        List.forall_mem_append.2 ⟨ih, List.forall_mem_append.2 ⟨Text.isWritable_of_blanks hbehind,
          List.forall_mem_cons.2 ⟨hop, ihrest⟩⟩⟩⟩

namespace Parse

/-- What is read as an expression is written with these characters only. -/
theorem isWritable_of_parse {limits : Limits} {text : Text} {t : Expr}
    (h : parse limits text = .ok t) : ∀ c ∈ text, isWritable c = true := by
  obtain ⟨tokens, height, hspells, hbuilds, -⟩ := parse_eq_ok_iff.1 h
  obtain ⟨literals, hderives, -⟩ := Grammar.derives_of_builds hbuilds hspells
  exact hderives.isWritable

/-- No expression is read from the empty text. -/
theorem ne_nil_of_parse {limits : Limits} {text : Text} {t : Expr} (h : parse limits text = .ok t) :
    text ≠ [] := by
  obtain ⟨tokens, height, hspells, hbuilds, -⟩ := parse_eq_ok_iff.1 h
  obtain ⟨token, tokens, rfl⟩ := List.exists_cons_of_ne_nil hbuilds.ne_nil
  exact hspells.ne_nil

end Parse

namespace Command

/-! ### Sessions and files

What makes lines for the prompt is outside the program. All that is assumed of it is that it hands over
the lines of the standard input one after another, each without its line feed, and then the end. Whether
it takes a carriage return for a part of the line or of its end is left open: the session trims its
lines. -/

/-- What may be handed over for a line that ends at a line feed or at the end of the text. -/
inductive ReadsAs : Text → LineRead → Prop where
  /-- The line as it stands. -/
  | whole (line : Text) : ReadsAs line (.line line)
  /-- The line without the carriage return at its end. -/
  | beforeReturn (line : Text) : ReadsAs (line ++ ['\r']) (.line line)

/-- The reader starts, and whatever the text is, it hands over every line of it and nothing else. -/
def LineReader.HandsOver (reader : LineReader) : Prop :=
  ∀ input, ∃ reads, reader input = .ok reads ∧ List.Forall₂ ReadsAs (Text.lines input) reads

/-- A reader for which a carriage return belongs to the end of its line. -/
def withoutReturns : LineReader := fun input =>
  .ok ((Text.lines input).map fun line =>
    .line (if line.getLast? = some '\r' then line.dropLast else line))

/-- What is assumed of a reader can be had. -/
theorem handsOver_withoutReturns : withoutReturns.HandsOver := by
  intro input
  refine ⟨_, rfl, List.forall₂_map_right_iff.2 (List.forall₂_same.2 ?_)⟩
  intro line _
  split
  · rename_i hreturn
    have hread := ReadsAs.beforeReturn line.dropLast
    rwa [List.dropLast_append_getLast? _ hreturn] at hread
  · exact .whole line

/-- Whether a line ends a session. -/
def endsSession (line : Text) : Bool := isFarewell (Text.trim line)

/-- The lines before the first one that ends the session. -/
def opening (lines : List Text) : List Text := lines.takeWhile fun line => !endsSession line

/-- The part of a text that a session answers: the lines before the first one that ends the session, or
    the whole text if there is none. -/
def openingText (input : Text) : Text :=
  if (Text.lines input).any endsSession then Text.unlines (opening (Text.lines input)) else input

/-- The part that is answered has just the lines that are answered. -/
theorem lines_openingText (input : Text) : Text.lines (openingText input) = opening (Text.lines input) := by
  unfold openingText
  split
  · apply Text.lines_unlines
    intro line hline
    exact Text.newline_not_mem_of_mem_lines ((List.takeWhile_sublist _).subset hline)
  · rename_i hnone
    have hstay : ∀ line ∈ Text.lines input, (!endsSession line) = true := by
      simpa using hnone
    exact (List.takeWhile_eq_self_iff.2 hstay).symm

/-- What is printed for a line. -/
def answer (settings : Settings) (line : Text) : List Text :=
  if (Text.trim line).isEmpty then [] else Report.ofText settings (Text.trim line)

/-- The report on a file answers its lines one by one. -/
theorem output_runEntries_eq_answers (settings : Settings) (text : Text) :
    (runEntries settings text).output = (Text.lines text).flatMap (answer settings) := by
  rw [output_runEntries, ← List.flatMap_def, Text.entries]
  induction Text.lines text with
  | nil => rfl
  | cons line lines ih =>
      rw [List.map_cons, List.filter_cons, List.flatMap_cons, ← ih, answer]
      cases (Text.trim line).isEmpty with
      | true => rfl
      | false => rfl

/-- No entry is both blank and a farewell, so it does not matter which is asked first. -/
theorem replyTo_eq (settings : Settings) (entry : Text) :
    replyTo settings entry =
      if isFarewell entry then .close .success
      else .answer (if entry.isEmpty then [] else Report.ofText settings entry) := by
  cases entry with
  | nil => rfl
  | cons c rest => rfl

/-- A line is answered, or ends the session well, whatever it is and however it is handed over. -/
theorem reply_eq {line : Text} {read : LineRead} (h : ReadsAs line read) (settings : Settings) :
    reply settings read =
      if endsSession line then .close .success else .answer (answer settings line) := by
  cases h with
  | whole => exact replyTo_eq settings (Text.trim line)
  | beforeReturn text =>
      have htrim : Text.trim (text ++ ['\r']) = Text.trim text :=
        Text.trim_append text (Text.blanks_singleton (by decide))
      rw [endsSession, answer, htrim]
      exact replyTo_eq settings (Text.trim text)

/-- A session answers the lines before the one that ends it, and ends well. -/
theorem converse_eq {lines : List Text} {reads : List LineRead} (h : List.Forall₂ ReadsAs lines reads)
    (settings : Settings) :
    converse settings reads = ⟨(opening lines).flatMap (answer settings), .success⟩ := by
  induction h with
  | nil => rfl
  | @cons line read lines reads hread _ ih =>
      rw [converse, reply_eq hread, ih, opening, opening, List.takeWhile_cons]
      cases endsSession line with
      | true => rfl
      | false => rfl

/-- The session over a text prints what the report on the part it answers does. -/
theorem runPrompt_eq {reader : LineReader} (hreader : reader.HandsOver) (settings : Settings)
    (input : Text) :
    runPrompt reader settings input = ⟨(runEntries settings (openingText input)).output, .success⟩ := by
  obtain ⟨reads, hreads, hlines⟩ := hreader input
  rw [runPrompt, hreads, output_runEntries_eq_answers, lines_openingText]
  exact converse_eq hlines settings

/-! ### Expressions on a line of their own -/

section Expressions

variable {settings : Settings} {input line : Text} {t : Expr}

/-- No expression ends a session. -/
theorem endsSession_of_parse {limits : Limits} (h : Parse.parse limits line = .ok t) :
    endsSession line = false := by
  have hentry := Parse.isWritable_of_parse (Parse.parse_trim_eq_ok_iff.2 h)
  -- Both words that end a session have a letter which expressions have not.
  have hletter : 'i' ∉ Text.trim line := fun hmem => absurd (hentry _ hmem) (by decide)
  cases hends : endsSession line with
  | false => rfl
  | true =>
      rw [endsSession, isFarewell, Bool.or_eq_true, decide_eq_true_eq, decide_eq_true_eq] at hends
      rcases hends with heq | heq
      · exact absurd (heq ▸ (by decide)) hletter
      · exact absurd (heq ▸ (by decide)) hletter

/-- In a file, an expression on its only line is shown, and the run ends well. -/
theorem runEntries_of_lines (hlines : Text.lines input = [line])
    (hparse : Parse.parse settings.limits line = .ok t) :
    runEntries settings input = ⟨Report.ofExpr settings t, .success⟩ := by
  have htrim := Parse.parse_trim_eq_ok_iff.2 hparse
  have hentries : Text.entries input = [Text.trim line] := by
    simp [Text.entries, hlines, Parse.ne_nil_of_parse htrim]
  simp [runEntries, hentries, htrim, isFailure, Report.ofResult]

/-- At the prompt, an expression on the only line of the input is shown, too. -/
theorem runPrompt_of_lines {reader : LineReader} (hreader : reader.HandsOver)
    (hlines : Text.lines input = [line]) (hparse : Parse.parse settings.limits line = .ok t) :
    runPrompt reader settings input = ⟨Report.ofExpr settings t, .success⟩ := by
  have hopening : openingText input = input := by
    rw [openingText, hlines]
    simp [endsSession_of_parse hparse]
  rw [runPrompt_eq hreader, hopening, runEntries_of_lines hlines hparse]

end Expressions

/-- What can stand behind the only line of a text. -/
def terminators : List Text := [[], ['\n'], ['\r', '\n']]

/-- Whatever terminates it, a text on one line is handed over with no more than blanks behind it. -/
theorem exists_lines_eq {text terminator : Text} (hne : text ≠ []) (htext : '\n' ∉ text)
    (hmem : terminator ∈ terminators) :
    ∃ gap, Text.Blanks gap ∧ Text.lines (text ++ terminator) = [text ++ gap] := by
  have hcases : terminator = [] ∨ terminator = ['\n'] ∨ terminator = ['\r', '\n'] := by
    simpa [terminators] using hmem
  rcases hcases with rfl | rfl | rfl
  · refine ⟨[], Text.blanks_nil, ?_⟩
    rw [List.append_nil]
    exact Text.lines_eq_singleton hne htext
  · refine ⟨[], Text.blanks_nil, ?_⟩
    rw [Text.lines_append_newline htext, List.append_nil]
    rfl
  · refine ⟨['\r'], Text.blanks_singleton (by decide), ?_⟩
    have hreturn : '\n' ∉ text ++ ['\r'] := List.not_mem_append htext (by decide)
    rw [List.append_cons, Text.lines_append_newline hreturn]
    rfl

/-- The sources of expressions agree, whatever makes lines for the prompt, as long as it hands over the
    lines of its input. The session over a text prints what the report on a file does for the lines before
    the first one that ends the session, and ends well. An expression that the command line accepts has
    the same outcome on a line of its own, in a file and at the prompt. -/
theorem modes_agree {reader : LineReader} (hreader : reader.HandsOver) (settings : Settings)
    (path : Text) :
    (∀ input,
        runPrompt reader settings input =
          ⟨(runFile settings path (.ok (openingText input))).output, .success⟩) ∧
      ∀ text, '\n' ∉ text → (runWords settings text).ending = .success →
        ∀ terminator ∈ terminators,
          runFile settings path (.ok (text ++ terminator)) = runWords settings text ∧
            runPrompt reader settings (text ++ terminator) = runWords settings text := by
  refine ⟨runPrompt_eq hreader settings, ?_⟩
  intro text hnewline hsuccess terminator hmem
  cases hparse : Parse.parse settings.limits text with
  | error error =>
      rw [runWords, hparse] at hsuccess
      cases hsuccess
  | ok t =>
      obtain ⟨gap, hgap, hlines⟩ := exists_lines_eq (Parse.ne_nil_of_parse hparse) hnewline hmem
      have hline := (Parse.parse_eq_ok_iff_of_respaced (Text.respaced_append text hgap)).1 hparse
      have hwords : runWords settings text = ⟨Report.ofExpr settings t, .success⟩ := by
        rw [runWords, hparse]
      rw [hwords]
      exact ⟨runEntries_of_lines hlines hline, runPrompt_of_lines hreader hlines hline⟩

/-- With a reader that drops carriage returns: the blank line is passed over, the fourth line ends the
    session, and the fifth is not answered. -/
theorem modes_agree_quit :
    withoutReturns.HandsOver ∧
      runPrompt withoutReturns {} "1+2\r\n\n 8/ \n quit\n3".toList =
        ⟨(runFile {} [] (.ok "1+2\r\n\n 8/ \n".toList)).output, .success⟩ ∧
      '\n' ∉ " 1+2\t".toList ∧ (runWords {} " 1+2\t".toList).ending = .success ∧
      runFile {} [] (.ok " 1+2\t\r\n".toList) = runWords {} " 1+2\t".toList ∧
      runPrompt withoutReturns {} " 1+2\t\r\n".toList = runWords {} " 1+2\t".toList := by
  have hopening : openingText "1+2\r\n\n 8/ \n quit\n3".toList = "1+2\r\n\n 8/ \n".toList := by
    decide +kernel
  have hsuccess : (runWords {} " 1+2\t".toList).ending = .success := by decide +kernel
  obtain ⟨hsession, hexpression⟩ := modes_agree handsOver_withoutReturns {} []
  have hprompt := hsession "1+2\r\n\n 8/ \n quit\n3".toList
  rw [hopening] at hprompt
  obtain ⟨hfile, hline⟩ := hexpression _ (by decide) hsuccess ['\r', '\n'] (by decide)
  exact ⟨handsOver_withoutReturns, hprompt, by decide, hsuccess, hfile, hline⟩

end Command

end Calculator
