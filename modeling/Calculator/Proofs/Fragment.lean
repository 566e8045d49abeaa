/-
Module: Calculator.Proofs.Fragment
Layer: Proofs
Purpose: Where scanning fails. The scanner reads tokens up to a character with which none starts or to
  a bracket that is never closed. The builder scans again what stands inside groups, at any depth, so
  an error of scanning was found in the text or in the interior of a group. The interiors of groups
  that the scanner cut off are balanced, and in a balanced text every bracket has its partner: brackets
  without one are all found when the text is scanned first.
Imports: Calculator.Proofs.Derivation
Trusted boundary: none (fully proved)
Main exports: Token.StartsNothing, Token.readToken_eq_error, Token.lex_eq_error, Token.scan_eq_error,
  Parse.Interior, Parse.exists_interior_of_buildAt, Parse.Interior.balanced, ScanError.Unpaired,
  Parse.parse_unpaired_iff_scan
-/
import Calculator.Proofs.Derivation

namespace Calculator

/-! ### Where the scanner stops -/

/-- A text that closes one bracket more than it opens holds the closing bracket of a group. -/
theorem Bracket.takeClosing_isSome {depth : Nat} {text : Text} (h : level (depth + 1) text = some 0) :
    (takeClosing depth text).isSome = true := by
  induction text generalizing depth with
  | nil => cases h
  | cons c rest ih =>
      rw [takeClosing.eq_def]
      by_cases hopen : c = '('
      · subst hopen
        simpa using ih h
      · by_cases hclose : c = ')'
        · subst hclose
          cases depth with
          | zero => rfl
          | succ d => simpa [hopen] using ih h
        · rw [level_other _ _ hopen hclose] at h
          simpa [hopen, hclose] using ih h

namespace Token

open Text (isBlank utf8Length)

/-- The character is no blank, and no token starts with it. -/
structure StartsNothing (c : Char) : Prop where
  blank : isBlank c = false
  operator : Operator.ofSymbol? c = none
  bracket : c ≠ '('
  digit : c.isDigit = false

/-- Reading a token fails at a bracket that is never closed, or at a character with which no token
    starts. -/
theorem readToken_eq_error {c : Char} {rest : Text} {stop : Stop} (h : readToken c rest = .error stop) :
    (c = '(' ∧ Bracket.takeClosing 0 rest = none ∧ stop = .bracket (.unclosed (c :: rest))) ∨
      (Operator.ofSymbol? c = none ∧ c ≠ '(' ∧ c.isDigit = false) ∧ stop = .stray c rest := by
  unfold readToken at h
  split at h
  · cases h
  · rename_i hop
    split at h
    · rename_i hopen
      subst hopen
      rw [Bracket.takeGroup] at h
      cases hcut : Bracket.takeClosing 0 rest with
      | none =>
          simp only [hcut] at h
          cases h
          exact Or.inl ⟨rfl, rfl, rfl⟩
      | some cut =>
          simp only [hcut] at h
          cases h
    · rename_i hopen
      split at h
      · rename_i hliteral
        cases h
        exact Or.inr ⟨⟨hop, hopen, Numeral.isDigit_of_takeLiteral hliteral⟩, rfl⟩
      · cases h

/-- Up to the character at which the scanner fails, the text spells tokens, and no blank stands
    there. -/
theorem lex_eq_error {text : Text} {stop : Stop} (h : lex text = .error stop) :
    ∃ before tokens c rest, text = before ++ c :: rest ∧ Spells before tokens ∧
      isBlank c = false ∧ readToken c rest = .error stop := by
  fun_induction lex text with
  | case1 => cases h
  | case2 c rest hblank ih =>
      obtain ⟨before, tokens, d, tail, rfl, hspells, hd, hread⟩ := ih h
      exact ⟨c :: before, tokens, d, tail, rfl, hspells.blank hblank, hd, hread⟩
  | case3 c rest hblank stop' hread =>
      cases h
      exact ⟨[], [], c, rest, rfl, .nil Text.blanks_nil, Bool.eq_false_iff.2 hblank, hread⟩
  | case4 c rest _ token tail hread stop' htail ih =>
      cases h
      obtain ⟨before, tokens, d, behind, rfl, hspells, hd, hstop⟩ := ih htail
      obtain ⟨htoken, -⟩ := wellFormed_of_readToken hread
      refine ⟨token.text ++ before, token :: tokens, d, behind, ?_, ?_, hd, hstop⟩
      · rw [← readToken_append hread, List.append_assoc]
      · exact @Spells.cons [] _ _ _ Text.blanks_nil htoken (apart_of_readToken hread hspells) hspells
  | case5 => cases h

/-- Where the scanner stops at a character, the offset is the length of what stands before it. -/
theorem scan_of_lex_stray {before rest : Text} {c : Char}
    (h : lex (before ++ c :: rest) = .error (.stray c rest)) :
    scan (before ++ c :: rest) =
      .error (.unexpected (utf8Length before) c (before ++ c :: rest)) := by
  rw [scan, h]
  simp only [Text.utf8Length_append, Nat.add_sub_cancel]

/-- How scanning fails: at a character with which no token starts, or at a bracket that is never
    closed. Up to there the text spells tokens. -/
theorem scan_eq_error {text : Text} {error : ScanError} (h : scan text = .error error) :
    ∃ before tokens c rest, text = before ++ c :: rest ∧ Spells before tokens ∧
      (StartsNothing c ∧ error = .unexpected (utf8Length before) c text ∨
        c = '(' ∧ Bracket.takeClosing 0 rest = none ∧ error = .bracket (.unclosed (c :: rest))) := by
  cases hlex : lex text with
  | ok tokens =>
      rw [scan, hlex] at h
      cases h
  | error stop =>
      obtain ⟨before, tokens, c, rest, rfl, hspells, hblank, hread⟩ := lex_eq_error hlex
      refine ⟨before, tokens, c, rest, rfl, hspells, ?_⟩
      rcases readToken_eq_error hread with ⟨hopen, hcut, rfl⟩ | ⟨⟨hop, hopen, hdigit⟩, rfl⟩
      · rw [scan, hlex] at h
        cases h
        exact Or.inr ⟨hopen, hcut, rfl⟩
      · rw [scan_of_lex_stray hlex] at h
        cases h
        exact Or.inl ⟨⟨hblank, hop, hopen, hdigit⟩, rfl⟩

end Token

/-! ### Errors of brackets -/

namespace ScanError

/-- A bracket has no partner: a closing one stands where a token should, or an opening one is never
    closed. -/
def Unpaired : ScanError → Prop
  | unexpected _ found _ => found = ')'
  | bracket (.unclosed _) => True
  | bracket (.notOpened _) => False

end ScanError

namespace Token

/-- A balanced text has no bracket without a partner. -/
theorem not_unpaired_of_balanced {text : Text} {error : ScanError} (hbalanced : Bracket.Balanced text)
    (h : scan text = .error error) : ¬ error.Unpaired := by
  obtain ⟨before, tokens, c, rest, rfl, hspells, hcause⟩ := scan_eq_error h
  have hrest := hbalanced.of_append hspells.balanced
  rcases hcause with ⟨-, rfl⟩ | ⟨rfl, hnone, -⟩
  · rintro rfl
    cases hrest
  · -- The bracket at which scanning fails has its partner in what is left.
    have hsome := Bracket.takeClosing_isSome hrest
    rw [hnone] at hsome
    cases hsome

/-- The scanner looks for a group only where a bracket opens. -/
theorem scan_kind_ne {text : Text} {error : ScanError} (h : scan text = .error error) :
    error.kind ≠ .missingBracket := by
  obtain ⟨before, tokens, c, rest, -, -, ⟨-, rfl⟩ | ⟨-, -, rfl⟩⟩ := scan_eq_error h
  · exact ErrorKind.noConfusion
  · exact ErrorKind.noConfusion

end Token

/-! ### What is scanned inside groups -/

namespace Parse

/-- The text stands between the brackets of a group among the tokens, or of a group further in. -/
inductive Interior : List Token → Text → Prop where
  | group {tokens : List Token} {group : Text} :
      .group group ∈ tokens → Interior tokens (Bracket.stripOuter group)
  | inside {tokens inner : List Token} {group text : Text} :
      .group group ∈ tokens → Token.scan (Bracket.stripOuter group) = .ok inner →
        Interior inner text → Interior tokens text

/-- What is inside of some tokens is inside of more of them. -/
theorem Interior.mono {tokens tokens' : List Token} {text : Text} (h : Interior tokens text)
    (hsubset : ∀ token ∈ tokens, token ∈ tokens') : Interior tokens' text := by
  cases h with
  | group hmem => exact .group (hsubset _ hmem)
  | inside hmem hscan hinner => exact .inside (hsubset _ hmem) hscan hinner

/-- What is inside of a side of a split is inside of the tokens that are split. -/
theorem Interior.of_split {tokens : List Token} {split : Split} {text : Text}
    (hsplit : Split.loosest? tokens = some split)
    (h : Interior split.left text ∨ Interior split.right text) : Interior tokens text := by
  obtain ⟨hleft, hright⟩ := @Split.forall_mem (· ∈ tokens) _ _ hsplit fun _ hmem => hmem
  rcases h with h | h
  · exact h.mono hleft
  · exact h.mono hright

/-- Inside groups that the scanner cut off, at any depth, the text is balanced. -/
theorem Interior.balanced {tokens : List Token} {text : Text} (h : Interior tokens text)
    (hwell : ∀ token ∈ tokens, token.WellFormed) : Bracket.Balanced text := by
  induction h with
  | group hmem =>
      obtain ⟨w, hw, rfl⟩ := hwell _ hmem
      rw [Bracket.stripOuter_enclose]
      exact hw
  | inside _ hscan _ ih => exact ih (Token.scan_eq_ok_iff_spells.1 hscan).wellFormed

/-- An error of scanning was found in the interior of a group. -/
theorem exists_interior_of_buildAt {limits : Limits} {nesting splits : Nat} {tokens : List Token}
    {error : ScanError} (h : buildAt limits nesting splits tokens = .error (.scan error)) :
    ∃ text, Interior tokens text ∧ Token.scan text = .error error := by
  fun_induction buildAt limits nesting splits tokens with
  | case1 => cases h
  | case2 => cases h
  | case3 => cases h
  | case4 nesting splits _ _ group error' hscan =>
      cases h
      exact ⟨_, .group List.mem_cons_self, hscan⟩
  | case5 nesting splits _ _ group inner hscan ih =>
      obtain ⟨text, hinterior, herror⟩ := ih h
      exact ⟨text, .inside List.mem_cons_self hscan hinterior, herror⟩
  | case6 => cases h
  | case7 => cases h
  | case8 => cases h
  | case9 => cases h
  | case10 nesting splits _ _ tokens _ _ _ _ split hsplit error' hleft ihleft =>
      cases h
      obtain ⟨text, hinterior, herror⟩ := ihleft hleft
      exact ⟨text, Interior.of_split hsplit (Or.inl hinterior), herror⟩
  | case11 nesting splits _ _ tokens _ _ _ _ split hsplit left hleft error' hright ihleft ihright =>
      cases h
      obtain ⟨text, hinterior, herror⟩ := ihright hright
      exact ⟨text, Interior.of_split hsplit (Or.inr hinterior), herror⟩
  | case12 => cases h

/-- The builder never reports that a bracket expression is missing. -/
theorem build_kind_ne {limits : Limits} {tokens : List Token} {error : ParseError}
    (h : build limits tokens = .error error) : error.kind ≠ .missingBracket := by
  cases error with
  | scan error =>
      obtain ⟨text, -, herror⟩ := exists_interior_of_buildAt h
      exact Token.scan_kind_ne herror
  | _ => exact ErrorKind.noConfusion

/-- Tokens read from a text build no error of an unpaired bracket, however deep their groups go. -/
theorem build_ne_unpaired {limits : Limits} {text : Text} {tokens : List Token} {error : ScanError}
    (hscan : Token.scan text = .ok tokens) (hunpaired : error.Unpaired) :
    build limits tokens ≠ .error (.scan error) := by
  intro h
  obtain ⟨inner, hinterior, herror⟩ := exists_interior_of_buildAt h
  have hbalanced := hinterior.balanced (Token.scan_eq_ok_iff_spells.1 hscan).wellFormed
  exact Token.not_unpaired_of_balanced hbalanced herror hunpaired

/-- Unpaired brackets are all found when a text is scanned first: once it is scanned, reading it does
    not fail by one, so it fails by one exactly if the scan does, with the same error. No text and no
    tokens, whatever their groups hold, lead to the search for a group where no bracket opens. -/
theorem parse_unpaired_iff_scan (limits : Limits) (text : Text) :
    (∀ tokens error, Token.scan text = .ok tokens → error.Unpaired →
      parse limits text ≠ .error (.scan error)) ∧
      (∀ error, error.Unpaired →
        (parse limits text = .error (.scan error) ↔ Token.scan text = .error error)) ∧
      (∀ error, parse limits text = .error error → error.kind ≠ .missingBracket) ∧
      ∀ tokens error, build limits tokens = .error error → error.kind ≠ .missingBracket := by
  refine ⟨?_, ?_, ?_, ?_⟩
  · intro tokens error hscan hunpaired
    rw [parse, hscan]
    exact build_ne_unpaired hscan hunpaired
  · intro error hunpaired
    cases hscan : Token.scan text with
    | error error' =>
        rw [parse, hscan]
        simp
    | ok tokens =>
        rw [parse, hscan]
        simpa using build_ne_unpaired hscan hunpaired
  · intro error h
    unfold parse at h
    split at h
    · rename_i error' hscan
      cases h
      exact Token.scan_kind_ne hscan
    · exact build_kind_ne h
  · intro tokens error h
    exact build_kind_ne h

/-- The bracket too many in `((1))+2)` is found behind the sum by the first scan, the one missing in a
    group that holds nothing else is found when the group is opened. -/
theorem unpaired_closing :
    ScanError.Unpaired (.unexpected 7 ')' "((1))+2)".toList) ∧
      Token.scan "((1))+2)".toList = .error (.unexpected 7 ')' "((1))+2)".toList) ∧
      parse {} "((1))+2)".toList = .error (.scan (.unexpected 7 ')' "((1))+2)".toList)) ∧
      build {} [.group ['(']] = .error (.scan (.bracket (.unclosed ['(']))) ∧
      ParseError.kind (.scan (.bracket (.unclosed ['(']))) ≠ .missingBracket := by
  have hunpaired : ScanError.Unpaired (.unexpected 7 ')' "((1))+2)".toList) := rfl
  have hscan : Token.scan "((1))+2)".toList = .error (.unexpected 7 ')' "((1))+2)".toList) := by
    decide +kernel
  have hbuild : build {} [.group ['(']] = .error (.scan (.bracket (.unclosed ['(']))) := by
    decide +kernel
  obtain ⟨-, hiff, -, hkind⟩ := parse_unpaired_iff_scan {} "((1))+2)".toList
  exact ⟨hunpaired, hscan, (hiff _ hunpaired).2 hscan, hbuild, hkind _ _ hbuild⟩

end Parse

end Calculator
