/-
Module: Calculator.Proofs.Quotation
Layer: Proofs
Purpose: What messages quote. An error carries pieces of the text in which it was found: a fragment and
  the character at fault, the rest behind a bracket, a literal, or tokens joined by spaces. Fragments
  are cut out of the text at any depth of its groups, so an error quotes characters of the text and
  spaces, and a message runs over several lines only if the text does.
Imports: Calculator.Proofs.Defect, Calculator.Proofs.Fragment, Calculator.Proofs.NumberText
Trusted boundary: none (fully proved)
Main exports: ParseError.quoted, Token.quoted_of_scan_error, Parse.Fragment.mem_of_mem,
  Parse.quoted_of_parse_error, ParseError.newline_not_mem_message
-/
import Calculator.Proofs.Defect
import Calculator.Proofs.Fragment
import Calculator.Proofs.NumberText

namespace Calculator

/-! ### Quotations -/

/-- The text that an error carries. -/
def BracketError.quoted : BracketError → Text
  | notOpened text => text
  | unclosed text => text

/-- The character and the text that an error carries. -/
def ScanError.quoted : ScanError → Text
  | unexpected _ found text => found :: text
  | bracket error => error.quoted

/-- All that an error carries of the text which was read. -/
def ParseError.quoted : ParseError → Text
  | scan error => error.quoted
  | noOperator tokens => tokens
  | badNumber literal => literal
  | empty | nestedTooDeeply _ | chainedTooLong _ => []

/-- Stripping brackets adds no characters. -/
theorem Bracket.mem_of_mem_stripOuter {text : Text} {c : Char} (h : c ∈ stripOuter text) : c ∈ text :=
  (stripOuter_sublist text).subset h

namespace Token

/-- A spelling holds the texts of its tokens. -/
theorem Spells.mem_of_mem {text : Text} {tokens : List Token} (h : Spells text tokens) {token : Token}
    (htoken : token ∈ tokens) {c : Char} (hc : c ∈ token.text) : c ∈ text := by
  induction h with
  | nil => cases htoken
  | cons _ _ _ _ ih =>
      apply List.mem_append_right
      rcases List.mem_cons.1 htoken with rfl | htoken
      · exact List.mem_append_left _ hc
      · exact List.mem_append_right _ (ih htoken)

/-- An error of scanning quotes the text. -/
theorem quoted_of_scan_error {text : Text} {error : ScanError} (h : scan text = .error error) :
    ∀ c ∈ error.quoted, c ∈ text := by
  intro c hc
  obtain ⟨before, tokens, d, rest, rfl, -, ⟨-, rfl⟩ | ⟨-, -, rfl⟩⟩ := scan_eq_error h
  · rcases List.mem_cons.1 hc with rfl | hc
    · exact List.mem_append_right _ List.mem_cons_self
    · exact hc
  · exact List.mem_append_right _ hc

/-- Tokens written out are their texts and spaces. -/
theorem mem_format {tokens : List Token} {c : Char} (h : c ∈ format tokens) :
    (∃ token ∈ tokens, c ∈ token.text) ∨ c = ' ' := by
  induction tokens with
  | nil => cases h
  | cons token tokens ih =>
      cases tokens with
      | nil => exact Or.inl ⟨token, List.mem_cons_self, h⟩
      | cons next more =>
          rcases List.mem_append.1 h with hc | hc
          · exact Or.inl ⟨token, List.mem_cons_self, hc⟩
          · rcases List.mem_cons.1 hc with hspace | hc
            · exact Or.inr hspace
            · rcases ih hc with ⟨found, hmem, hfound⟩ | hspace
              · exact Or.inl ⟨found, List.mem_cons_of_mem _ hmem, hfound⟩
              · exact Or.inr hspace

end Token

namespace Parse

/-- Fragments are made of characters of the text, at any depth. -/
theorem Fragment.mem_of_mem {text fragment : Text} (h : Fragment text fragment) {c : Char}
    (hc : c ∈ fragment) : c ∈ text := by
  induction h with
  | self => exact hc
  | inside _ hscan hmem ih =>
      apply ih
      exact (Token.scan_eq_ok_iff_spells.1 hscan).mem_of_mem hmem (Bracket.mem_of_mem_stripOuter hc)

/-- The error for a defect quotes tokens. -/
theorem Defect.mem_quoted {tokens : List Token} {error : ParseError} (h : Defect tokens error)
    {c : Char} (hc : c ∈ error.quoted) : (∃ token ∈ tokens, c ∈ token.text) ∨ c = ' ' := by
  cases h with
  | @operands before run behind _ _ _ =>
      rcases Token.mem_format hc with ⟨token, hmem, htoken⟩ | hspace
      · exact Or.inl ⟨token, List.mem_append_right _ (List.mem_append_left _ hmem), htoken⟩
      · exact Or.inr hspace
  | @lonely before behind op _ =>
      exact Or.inl ⟨.operator op, List.mem_append_right _ List.mem_cons_self, hc⟩
  | @literal _ literal hmem _ => exact Or.inl ⟨.number literal, hmem, hc⟩
  | nothing => cases hc
  | leading => cases hc
  | trailing => cases hc
  | adjacent => cases hc

/-- What an error quotes is taken from the fragment that it is about, apart from spaces. -/
theorem Reports.mem_quoted {fragment : Text} {error : ParseError} (h : Reports fragment error)
    {c : Char} (hc : c ∈ error.quoted) : c ∈ fragment ∨ c = ' ' := by
  rcases h with ⟨cause, rfl, hscan⟩ | ⟨tokens, hscan, hdefect⟩
  · exact Or.inl (Token.quoted_of_scan_error hscan c hc)
  · rcases hdefect.mem_quoted hc with ⟨token, hmem, htoken⟩ | hspace
    · exact Or.inl ((Token.scan_eq_ok_iff_spells.1 hscan).mem_of_mem hmem htoken)
    · exact Or.inr hspace

/-- An error of reading quotes characters of the text, and spaces. -/
theorem quoted_of_parse_error {limits : Limits} {text : Text} {error : ParseError}
    (h : parse limits text = .error error) {c : Char} (hc : c ∈ error.quoted) : c ∈ text ∨ c = ' ' := by
  unfold parse at h
  split at h
  · rename_i cause hscan
    cases h
    exact Or.inl (Token.quoted_of_scan_error hscan c hc)
  · rename_i tokens hscan
    rcases reports_of_buildAt .self hscan .whole h with hlimited | ⟨fragment, hfragment, hreports⟩
    · -- The limits are all that their errors carry.
      rcases hlimited with hlimited | hlimited
      · cases hlimited
        cases hc
      · cases hlimited
        cases hc
    · rcases hreports.mem_quoted hc with hmem | hspace
      · exact Or.inl (hfragment.mem_of_mem hmem)
      · exact Or.inr hspace

end Parse

/-! ### Messages -/

/-- Decimal digits stay on one line. -/
theorem Text.newline_not_mem_ofNat (n : Nat) : '\n' ∉ Text.ofNat n := by
  intro h
  cases (Numeral.isRow_ofNat n).2 _ h

theorem Text.not_mem_around {c : Char} {before text behind : Text} (hbefore : c ∉ before)
    (htext : c ∉ text) (hbehind : c ∉ behind) : c ∉ before ++ text ++ behind :=
  List.not_mem_append (List.not_mem_append hbefore htext) hbehind

/-- The wording around the quoted text of a bracket error stays on one line. -/
theorem BracketError.newline_not_mem_message {error : BracketError} (h : '\n' ∉ error.quoted) :
    '\n' ∉ error.message := by
  cases error with
  | notOpened text => exact Text.not_mem_around (by decide +kernel) h (by decide +kernel)
  | unclosed text => exact Text.not_mem_around (by decide +kernel) h (by decide +kernel)

/-- The wording around the quoted text of a scan error stays on one line. -/
theorem ScanError.newline_not_mem_message {error : ScanError} (h : '\n' ∉ error.quoted) :
    '\n' ∉ error.message := by
  cases error with
  | unexpected offset found text =>
      obtain ⟨hfound, htext⟩ := not_or.1 (mt List.mem_cons.2 h)
      have hcharacter : '\n' ∉ found :: "' at position ".toList :=
        List.not_mem_cons_of_ne_of_not_mem hfound (by decide +kernel)
      have hposition : '\n' ∉ "Unexpected character '".toList ++ found :: "' at position ".toList ++
          Text.ofNat offset :=
        Text.not_mem_around (by decide +kernel) hcharacter (Text.newline_not_mem_ofNat offset)
      have hlead := List.not_mem_append hposition (show '\n' ∉ " in \"".toList by decide +kernel)
      exact Text.not_mem_around hlead htext (by decide +kernel)
  | bracket error => exact BracketError.newline_not_mem_message h

/-- A message has line feeds only where it quotes some. -/
theorem ParseError.newline_not_mem_message {error : ParseError} (h : '\n' ∉ error.quoted) :
    '\n' ∉ error.message := by
  cases error with
  | scan error => exact ScanError.newline_not_mem_message h
  | empty => decide +kernel
  | noOperator tokens => exact Text.not_mem_around (by decide +kernel) h (by decide +kernel)
  | badNumber literal => exact List.not_mem_append (by decide +kernel) h
  | nestedTooDeeply limit =>
      exact List.not_mem_append (by decide +kernel) (Text.newline_not_mem_ofNat limit)
  | chainedTooLong limit =>
      exact Text.not_mem_around (by decide +kernel) (Text.newline_not_mem_ofNat limit)
        (by decide +kernel)

end Calculator
