/-
Module: Calculator.Proofs.Scanner
Layer: Proofs
Purpose: What the scanner promises of each of its answers. The group it cuts off is the shortest prefix
  that closes as many brackets as it opens, and a loop that counts open brackets finds it without ever
  lowering its count at zero. An error names a place up to which the text scans, and what stands there
  starts no token, or a group that never ends; cutting the text there changes nothing about the tokens
  before. Tokens written out are read back exactly if each of them is written as the scanner would read
  it.
Imports: Calculator.Proofs.Fragment, Calculator.Proofs.Lexeme, Calculator.Proofs.Slice
Trusted boundary: none (fully proved)
Main exports: Text.IsBoundary, Bracket.Closed, Bracket.takeCounted, Bracket.takeGroup_exact,
  Token.Spells.lex_append, Token.scan_failure_located, Token.scan_format_eq_ok_iff
-/
import Calculator.Proofs.Fragment
import Calculator.Proofs.Lexeme
import Calculator.Proofs.Slice

namespace Calculator

/-! ### Byte offsets -/

namespace Text

/-- In the UTF-8 encoding of the text, the offset falls on the first byte of a character or on the end
    of the text. -/
def IsBoundary (text : Text) (offset : Nat) : Prop :=
  (String.Pos.Raw.mk offset).IsValid (String.ofList text)

/-- The bytes counted are those of the UTF-8 encoding. -/
theorem utf8Length_eq_utf8ByteSize (text : Text) :
    utf8Length text = (String.ofList text).utf8ByteSize := by
  induction text with
  | nil => rfl
  | cons c rest ih =>
      rw [utf8Length_cons, ih, String.ofList_cons, String.utf8ByteSize_append,
        String.utf8ByteSize_singleton]

/-- Between two parts of a text lies a boundary. -/
theorem isBoundary_append (before behind : Text) :
    IsBoundary (before ++ behind) (utf8Length before) := by
  apply String.Pos.Raw.isValid_ofList.2
  refine ⟨before.length, ?_⟩
  rw [List.take_left', utf8Length_eq_utf8ByteSize]
  rfl

end Text

/-! ### Groups -/

namespace Bracket

/-- The text starts with `before`, which is not empty and closes as many brackets as it opens. -/
structure Closed (before text : Text) : Prop where
  lead : before <+: text
  ne_nil : before ≠ []
  count_eq : before.count '(' = before.count ')'

/-- The scanner of groups as a loop over the whole text. It counts the open brackets from zero on and
    cuts behind the bracket that brings the count back to zero; there is no cut if the text ends before.
    There is no answer at all if the count has to be lowered at zero. -/
def takeCounted (depth : Nat) : Text → Option (Option (Text × Text))
  | [] => some none
  | c :: rest =>
      if c = '(' then
        (takeCounted (depth + 1) rest).map fun cut => cut.map fun cut => (c :: cut.1, cut.2)
      else if c = ')' then
        match depth with
        | 0 => none
        | 1 => some (some ([c], rest))
        | d + 2 => (takeCounted (d + 1) rest).map fun cut => cut.map fun cut => (c :: cut.1, cut.2)
      else (takeCounted depth rest).map fun cut => cut.map fun cut => (c :: cut.1, cut.2)

/-- With a bracket open the count is not lowered at zero, and the loop cuts where the scanner does. -/
theorem takeCounted_succ (depth : Nat) (text : Text) :
    takeCounted (depth + 1) text = some (takeClosing depth text) := by
  induction text generalizing depth with
  | nil => rfl
  | cons c rest ih =>
      rw [takeCounted.eq_def, takeClosing.eq_def]
      by_cases hopen : c = '('
      · simp only [if_pos hopen, ih, Option.map_some]
      · simp only [if_neg hopen]
        by_cases hclose : c = ')'
        · simp only [if_pos hclose]
          cases depth with
          | zero => rfl
          | succ d => simp only [ih, Option.map_some]
        · simp only [if_neg hclose, ih, Option.map_some]

/-- The loop that counts depths finds the group that is taken. -/
theorem takeCounted_eq_takeGroup {text : Text} (hopen : text.head? = some '(') :
    takeCounted 0 text = some (takeGroup text).toOption := by
  obtain ⟨rest, rfl⟩ := List.head?_eq_some_iff.1 hopen
  rw [takeCounted, if_pos rfl, takeCounted_succ, takeGroup]
  cases takeClosing 0 rest <;> rfl

/-- The groups that are taken are the groups that a text starts with. -/
theorem takeGroup_eq_ok_iff_isGroup {text group : Text} :
    (∃ rest, takeGroup text = .ok (group, rest)) ↔ IsGroup group ∧ group <+: text := by
  simp only [takeGroup_eq_ok_iff, isGroup_iff]
  constructor
  · rintro ⟨rest, w, hw, hgroup, rfl⟩
    exact ⟨⟨w, hw, hgroup⟩, rest, rfl⟩
  · rintro ⟨⟨w, hw, hgroup⟩, rest, rfl⟩
    exact ⟨rest, w, hw, hgroup, rfl⟩

/-- Of the closed prefixes of a text that starts with a bracket, the group is the shortest. -/
theorem isGroup_iff_shortest {text group : Text} (hopen : text.head? = some '(') :
    IsGroup group ∧ group <+: text ↔
      Closed group text ∧ ∀ before, Closed before text → group.length ≤ before.length := by
  constructor
  · rintro ⟨⟨hhead, hcount, hfirst⟩, hlead⟩
    have hne : group ≠ [] := by
      rintro rfl
      cases hhead
    refine ⟨⟨hlead, hne, hcount⟩, ?_⟩
    intro before hbefore
    rcases List.prefix_or_prefix_of_prefix hlead hbefore.lead with hle | hle
    · exact hle.length_le
    · -- A shorter one would be closed before the group is.
      have hwhole : before = group := by
        by_contra hproper
        exact hfirst before hle hbefore.ne_nil hproper hbefore.count_eq
      rw [hwhole]
  · rintro ⟨⟨hlead, hne, hcount⟩, hshortest⟩
    refine ⟨⟨?_, hcount, ?_⟩, hlead⟩
    · obtain ⟨c, rest, rfl⟩ := List.exists_cons_of_ne_nil hne
      obtain ⟨behind, rfl⟩ := hlead
      exact hopen
    · intro before hbefore hne' hproper hequal
      have hle := hshortest before ⟨hbefore.trans hlead, hne', hequal⟩
      exact hproper (hbefore.eq_of_length_le hle)

/-- If the first bracket of a text is never closed, it is open behind every prefix. -/
theorem not_closed_of_takeClosing {rest : Text} (h : takeClosing 0 rest = none) (before : Text) :
    ¬ Closed before ('(' :: rest) := by
  rintro ⟨hlead, hne, hcount⟩
  obtain ⟨e, hlevel⟩ := exists_level h
  rcases List.prefix_cons_iff.1 hlead with rfl | ⟨tail, rfl, htail⟩
  · exact hne rfl
  · have hle := (level_eq_some_iff.1 hlevel).1 tail htail
    rw [List.count_cons_self, List.count_cons_of_ne (by decide)] at hcount
    omega

theorem takeGroup_eq_unclosed_iff {rest : Text} :
    takeGroup ('(' :: rest) = .error (.unclosed ('(' :: rest)) ↔ takeClosing 0 rest = none := by
  rw [takeGroup]
  cases takeClosing 0 rest with
  | none => simp
  | some cut => simp

/-- A group is unclosed if no beginning of the text closes it. -/
theorem takeGroup_eq_unclosed_iff_closed {text : Text} (hopen : text.head? = some '(') :
    takeGroup text = .error (.unclosed text) ↔ ∀ before, ¬ Closed before text := by
  obtain ⟨rest, rfl⟩ := List.head?_eq_some_iff.1 hopen
  constructor
  · intro h
    exact not_closed_of_takeClosing (takeGroup_eq_unclosed_iff.1 h)
  · intro h
    apply takeGroup_eq_unclosed_iff.2
    cases hcut : takeClosing 0 rest with
    | none => rfl
    | some cut =>
        have hgroup : takeGroup ('(' :: rest) = .ok ('(' :: cut.1, cut.2) := by
          rw [takeGroup, hcut]
        have hshortest := (isGroup_iff_shortest hopen).1 (takeGroup_eq_ok_iff_isGroup.1 ⟨_, hgroup⟩)
        exact absurd hshortest.1 (h _)

/-- Whatever does not start with a bracket is refused as such. -/
theorem takeGroup_eq_notOpened_iff {text : Text} :
    takeGroup text = .error (.notOpened text) ↔ text.head? ≠ some '(' := by
  constructor
  · intro h hopen
    obtain ⟨rest, rfl⟩ := List.head?_eq_some_iff.1 hopen
    rw [takeGroup] at h
    cases hcut : takeClosing 0 rest with
    | none => simp [hcut] at h
    | some cut => simp [hcut] at h
  · intro h
    unfold takeGroup
    split
    · exact absurd rfl h
    · rfl

/-- The scanner of groups is exact. It refuses a text that does not start with a bracket; of any other
    it cuts off the shortest closed prefix, between two characters, and fails if there is none. The loop
    that counts open brackets has the same answers, so its count is never lowered at zero. What is left
    of a group without its two brackets is balanced, and every balanced text in brackets is a group,
    whatever follows. -/
theorem takeGroup_exact (text : Text) :
    (takeGroup text = .error (.notOpened text) ↔ text.head? ≠ some '(') ∧
      (text.head? = some '(' →
        (∀ group, (∃ rest, takeGroup text = .ok (group, rest)) ↔
          Closed group text ∧ ∀ before, Closed before text → group.length ≤ before.length) ∧
        (takeGroup text = .error (.unclosed text) ↔ ∀ before, ¬ Closed before text) ∧
        takeCounted 0 text = some (takeGroup text).toOption) ∧
      (∀ group rest, takeGroup text = .ok (group, rest) →
        text = group ++ rest ∧ Text.IsBoundary text (Text.utf8Length group) ∧
          group = enclose (stripOuter group) ∧ Balanced (stripOuter group)) ∧
      ∀ w rest, Balanced w → takeGroup (enclose w ++ rest) = .ok (enclose w, rest) := by
  refine ⟨takeGroup_eq_notOpened_iff, ?_, ?_, ?_⟩
  · intro hopen
    refine ⟨?_, takeGroup_eq_unclosed_iff_closed hopen, takeCounted_eq_takeGroup hopen⟩
    intro group
    exact takeGroup_eq_ok_iff_isGroup.trans (isGroup_iff_shortest hopen)
  · intro group rest h
    obtain ⟨w, hw, rfl, rfl⟩ := takeGroup_eq_ok_iff.1 h
    rw [stripOuter_enclose]
    exact ⟨rfl, Text.isBoundary_append _ _, rfl, hw⟩
  · intro w rest hw
    exact takeGroup_enclose hw rest

/-- The group at the start of `((π)(2))+(3)` ends at the third of the closing brackets and takes up nine
    bytes, while no prefix of `((π)` is closed. -/
theorem takeGroup_exact_nested :
    takeGroup "((π)(2))+(3)".toList = .ok ("((π)(2))".toList, "+(3)".toList) ∧
      (Closed "((π)(2))".toList "((π)(2))+(3)".toList ∧
        ∀ before, Closed before "((π)(2))+(3)".toList → "((π)(2))".toList.length ≤ before.length) ∧
      Text.utf8Length "((π)(2))".toList = 9 ∧
      Text.IsBoundary "((π)(2))+(3)".toList (Text.utf8Length "((π)(2))".toList) ∧
      Balanced (stripOuter "((π)(2))".toList) ∧
      takeGroup (enclose "(π)".toList ++ "+1".toList) = .ok (enclose "(π)".toList, "+1".toList) ∧
      takeGroup "((π)".toList = .error (.unclosed "((π)".toList) ∧
      (∀ before, ¬ Closed before "((π)".toList) ∧
      takeCounted 0 "((π)".toList = some (takeGroup "((π)".toList).toOption := by
  have hgroup : takeGroup "((π)(2))+(3)".toList = .ok ("((π)(2))".toList, "+(3)".toList) := by
    decide +kernel
  have hunclosed : takeGroup "((π)".toList = .error (.unclosed "((π)".toList) := by decide +kernel
  have hbalanced : level 0 "(π)".toList = some 0 := by decide +kernel
  obtain ⟨-, hopen, hok, hconverse⟩ := takeGroup_exact "((π)(2))+(3)".toList
  have hshortest := ((hopen (by decide)).1 _).1 ⟨_, hgroup⟩
  obtain ⟨-, hboundary, -, hinner⟩ := hok _ _ hgroup
  obtain ⟨-, hopen', -, -⟩ := takeGroup_exact "((π)".toList
  obtain ⟨-, hclosed, hcounted⟩ := hopen' (by decide)
  exact ⟨hgroup, hshortest, by decide, hboundary, hinner, hconverse _ _ hbalanced, hunclosed,
    hclosed.1 hunclosed, hcounted⟩

end Bracket

/-! ### Failures -/

namespace Token

open Text (utf8Length)

/-- Tokens are read as they stand if what follows does not lengthen a literal at their end. -/
theorem Spells.lex_append {before rest : Text} {tokens : List Token} (h : Spells before tokens)
    (hends : Numeral.Ends rest) : lex (before ++ rest) = (lex rest).map (tokens ++ ·) := by
  induction h with
  | @nil gap hgap =>
      rw [lex_blanks_append hgap]
      cases lex rest <;> rfl
  | @cons gap behind token tokens hgap htoken hapart hbehind ih =>
      have hstops : token.Stops (behind ++ rest) := by
        intro literal hliteral
        cases behind with
        | nil => exact hends
        | cons c more => exact hbehind.stops hapart literal hliteral
      rw [List.append_assoc, List.append_assoc, lex_blanks_append hgap, lex_text_append htoken hstops, ih]
      cases lex rest <;> rfl

/-- A failure of the scanner tells where it is. An unexpected character stands at the offset that the
    error names, on a boundary between characters, and starts no token; a group that is never closed
    is all that is left of the text. In both cases the text before scans. Conversely, a character that
    starts no token and goes on with no literal stops the scanner wherever the text before it scans. -/
theorem scan_failure_located (text : Text) :
    (∀ offset found quoted, scan text = .error (.unexpected offset found quoted) →
      quoted = text ∧ Text.IsBoundary text offset ∧ StartsNothing found ∧
        ∃ before rest tokens, text = before ++ found :: rest ∧ offset = utf8Length before ∧
          scan before = .ok tokens) ∧
      (∀ rest, scan text = .error (.bracket (.unclosed rest)) →
        rest.head? = some '(' ∧ (∀ part, ¬ Bracket.Closed part rest) ∧
          ∃ before tokens, text = before ++ rest ∧ scan before = .ok tokens) ∧
      ∀ before c rest tokens, text = before ++ c :: rest → scan before = .ok tokens →
        StartsNothing c → c ≠ '.' → scan text = .error (.unexpected (utf8Length before) c text) := by
  refine ⟨?_, ?_, ?_⟩
  · intro offset found quoted h
    obtain ⟨before, tokens, c, rest, rfl, hspells, ⟨hstarts, herror⟩ | ⟨-, -, herror⟩⟩ :=
      scan_eq_error h
    · cases herror
      refine ⟨rfl, Text.isBoundary_append _ _, hstarts, before, rest, tokens, rfl, rfl, ?_⟩
      exact scan_eq_ok_iff_spells.2 hspells
    · cases herror
  · intro rest h
    obtain ⟨before, tokens, c, tail, rfl, hspells, ⟨-, herror⟩ | ⟨rfl, hcut, herror⟩⟩ :=
      scan_eq_error h
    · cases herror
    · cases herror
      refine ⟨rfl, Bracket.not_closed_of_takeClosing hcut, before, tokens, rfl, ?_⟩
      exact scan_eq_ok_iff_spells.2 hspells
  · rintro before c rest tokens rfl hbefore hstarts hpoint
    have hends : Numeral.Ends (c :: rest) := Numeral.ends_cons rest hstarts.digit hpoint
    have hlex := (scan_eq_ok_iff_spells.1 hbefore).lex_append hends
    rw [lex_stray rest hstarts.blank hstarts.operator hstarts.bracket hstarts.digit] at hlex
    exact scan_of_lex_stray hlex

/-- In `(π) 2×3` the sixth character stops the scanner, six bytes from the start of the text; the
    bracket that `1 + (2` leaves open is reported with all that follows it. -/
theorem scan_failure_located_stray :
    StartsNothing '×' ∧ utf8Length "(π) 2".toList = 6 ∧
      scan "(π) 2×3".toList =
        .error (.unexpected (utf8Length "(π) 2".toList) '×' "(π) 2×3".toList) ∧
      Text.IsBoundary "(π) 2×3".toList (utf8Length "(π) 2".toList) ∧
      scan "1 + (2".toList = .error (.bracket (.unclosed "(2".toList)) ∧
      (∀ part, ¬ Bracket.Closed part "(2".toList) ∧
      ∃ before tokens, "1 + (2".toList = before ++ "(2".toList ∧ scan before = .ok tokens := by
  have hstarts : StartsNothing '×' := ⟨by decide, by decide, by decide, by decide⟩
  have hbefore : scan "(π) 2".toList = .ok [.group "(π)".toList, .number ['2']] := by decide +kernel
  have hunclosed : scan "1 + (2".toList = .error (.bracket (.unclosed "(2".toList)) := by
    decide +kernel
  obtain ⟨hstray, -, hconverse⟩ := scan_failure_located "(π) 2×3".toList
  have hscan := hconverse "(π) 2".toList '×' ['3'] _ (by decide) hbefore hstarts (by decide)
  obtain ⟨-, hboundary, -⟩ := hstray _ _ _ hscan
  obtain ⟨-, hbracket, -⟩ := scan_failure_located "1 + (2".toList
  obtain ⟨-, hclosed, hsplit⟩ := hbracket _ hunclosed
  exact ⟨hstarts, by decide, hscan, hboundary, hunclosed, hclosed, hsplit⟩

/-! ### Tokens written out -/

/-- The scanner makes lexemes only. -/
theorem isLexeme_of_scan {text : Text} {tokens : List Token} (h : scan text = .ok tokens) :
    ∀ token ∈ tokens, token.IsLexeme := by
  intro token hmem
  exact isLexeme_iff.2 ((scan_eq_ok_iff_spells.1 h).wellFormed token hmem)

/-- The scanner reads lexemes back from their text. -/
theorem scan_format {tokens : List Token} (h : ∀ token ∈ tokens, token.IsLexeme) :
    scan (format tokens) = .ok tokens := by
  apply scan_eq_ok_iff_spells.2
  apply spells_format
  intro token hmem
  exact isLexeme_iff.1 (h token hmem)

/-- Tokens written out are read back exactly if each literal and each group among them is written as
    the scanner would read it. What the scanner reads is, so a text and its tokens written out are read
    as the same expression, or fail alike. -/
theorem scan_format_eq_ok_iff (tokens : List Token) :
    (scan (format tokens) = .ok tokens ↔ ∀ token ∈ tokens, token.IsLexeme) ∧
      ∀ text, scan text = .ok tokens →
        (∀ token ∈ tokens, token.IsLexeme) ∧
          ∀ limits, Parse.parse limits text = Parse.parse limits (format tokens) := by
  refine ⟨⟨isLexeme_of_scan, scan_format⟩, ?_⟩
  intro text h
  refine ⟨isLexeme_of_scan h, ?_⟩
  intro limits
  rw [Parse.parse, Parse.parse, h, scan_format (isLexeme_of_scan h)]

/-- The blanks of `3.5*\t( 2 )` outside its group are lost when its tokens are written out, those inside
    stay; a literal with a blank in it comes back as two. -/
theorem scan_format_spaced_group :
    scan " 3.5*\t( 2 )".toList = .ok [number "3.5".toList, operator .mul, group "( 2 )".toList] ∧
      scan "3.5 * ( 2 )".toList = .ok [number "3.5".toList, operator .mul, group "( 2 )".toList] ∧
      Parse.parse {} " 3.5*\t( 2 )".toList = Parse.parse {} "3.5 * ( 2 )".toList ∧
      scan "1 2".toList ≠ .ok [number "1 2".toList] ∧ ¬ (number "1 2".toList).IsLexeme := by
  have hscan : scan " 3.5*\t( 2 )".toList =
      .ok [number "3.5".toList, operator .mul, group "( 2 )".toList] := by decide +kernel
  obtain ⟨hformat, htext⟩ :=
    scan_format_eq_ok_iff [number "3.5".toList, operator .mul, group "( 2 )".toList]
  obtain ⟨hlexemes, hparse⟩ := htext _ hscan
  have hsplit : scan "1 2".toList ≠ .ok [number "1 2".toList] := by decide +kernel
  refine ⟨hscan, hformat.2 hlexemes, hparse {}, hsplit, ?_⟩
  intro hlexeme
  apply hsplit
  exact (scan_format_eq_ok_iff [number "1 2".toList]).1.2 fun token hmem => by
    rwa [List.mem_singleton.1 hmem]

end Token

end Calculator
