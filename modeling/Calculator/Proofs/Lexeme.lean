/-
Module: Calculator.Proofs.Lexeme
Layer: Proofs
Purpose: Scanning loses nothing. The scanner reads a text as a list of tokens exactly if the text is the
  row of their texts with a gap of blanks before the first of them and behind each, and with a blank in
  every gap between two literals. What the text of a token may be is said here without the scanner: a
  group is described by counting the brackets of its prefixes, and the count is the level which the
  scanner follows.
Imports: Calculator.Proofs.Spelling, Mathlib.Data.List.Infix
Trusted boundary: none (fully proved)
Main exports: Bracket.level_eq_some_iff, Bracket.IsGroup, Bracket.isGroup_iff, Token.IsLexeme,
  Token.weave, Token.spells_iff_weave, Token.scan_eq_ok_iff_weave
-/
import Calculator.Proofs.Spelling
import Mathlib.Data.List.Infix

namespace Calculator

/-! ### Groups by counting

No bracket closes that is not open exactly if no prefix closes more of them than were open, so the
level of a text can be read off the counts of its prefixes. -/

namespace Bracket

/-- The text starts with an opening bracket and is the first of its own prefixes, the empty one apart,
    to close as many brackets as it opens. -/
def IsGroup (text : Text) : Prop :=
  text.head? = some '(' ∧ text.count '(' = text.count ')' ∧
    ∀ before, before <+: text → before ≠ [] → before ≠ text → before.count '(' ≠ before.count ')'

/-- A property of all beginnings is one of the empty text and of those that start with the first
    character. -/
theorem forall_prefix_cons {p : Text → Prop} (c : Char) (rest : Text) :
    (∀ before, before <+: c :: rest → p before) ↔
      p [] ∧ ∀ before, before <+: rest → p (c :: before) := by
  constructor
  · intro h
    exact ⟨h [] List.nil_prefix, fun before hbefore => h _ ((List.prefix_cons_inj c).2 hbefore)⟩
  · rintro ⟨hnil, hcons⟩ before hbefore
    rcases List.prefix_cons_iff.1 hbefore with rfl | ⟨tail, rfl, htail⟩
    · exact hnil
    · exact hcons tail htail

/-- A text leads from one level to another exactly if none of its prefixes closes more brackets than
    are open, and its own brackets make up the difference. -/
theorem level_eq_some_iff {depth e : Nat} {text : Text} :
    level depth text = some e ↔
      (∀ before, before <+: text → before.count ')' ≤ depth + before.count '(') ∧
        depth + text.count '(' = e + text.count ')' := by
  induction text generalizing depth with
  | nil => simp
  | cons c rest ih =>
      rw [forall_prefix_cons]
      by_cases hopen : c = '('
      · subst hopen
        simp only [level_open, ih, List.count_nil, List.count_cons_self,
          List.count_cons_of_ne (show '(' ≠ ')' by decide), Nat.zero_le, true_and]
        simp only [Nat.add_right_comm depth 1, Nat.add_assoc]
      · by_cases hclose : c = ')'
        · subst hclose
          cases depth with
          | zero =>
              simp only [level_close_zero, List.count_cons_self]
              constructor
              · intro h
                cases h
              · rintro ⟨⟨-, hall⟩, -⟩
                -- The closing bracket alone is a prefix too many.
                have hfirst := hall [] List.nil_prefix
                simp at hfirst
          | succ d =>
              simp only [level_close_succ, ih, List.count_nil, List.count_cons_self,
                List.count_cons_of_ne (show ')' ≠ '(' by decide), Nat.zero_le, true_and]
              simp only [Nat.add_right_comm d 1, Nat.add_le_add_iff_right, ← Nat.add_assoc,
                Nat.add_right_cancel_iff]
        · simp only [level_other depth rest hopen hclose, ih, List.count_nil,
            List.count_cons_of_ne hopen, List.count_cons_of_ne hclose, Nat.zero_le, true_and]

/-- A text is balanced if no beginning closes more brackets than it opens, and the whole closes as
    many. -/
theorem balanced_iff {text : Text} :
    Balanced text ↔
      (∀ before, before <+: text → before.count ')' ≤ before.count '(') ∧
        text.count '(' = text.count ')' := by
  simp only [Balanced, level_eq_some_iff, Nat.zero_add]

/-- A balanced text in brackets is closed by its last bracket and not before. -/
theorem Balanced.isGroup_enclose {w : Text} (h : Balanced w) : IsGroup (Bracket.enclose w) := by
  obtain ⟨hprefixes, hcount⟩ := balanced_iff.1 h
  refine ⟨rfl, by simp [Bracket.enclose, hcount], ?_⟩
  intro before hbefore hne hproper
  rcases List.prefix_cons_iff.1 hbefore with rfl | ⟨tail, rfl, htail⟩
  · exact absurd rfl hne
  rcases List.prefix_concat_iff.1 htail with rfl | htail
  · exact absurd rfl hproper
  · have hle := hprefixes tail htail
    rw [List.count_cons_self, List.count_cons_of_ne (by decide)]
    omega

/-- Groups are the balanced texts in brackets. -/
theorem isGroup_iff {text : Text} : IsGroup text ↔ ∃ w, Balanced w ∧ text = enclose w := by
  constructor
  · rintro ⟨hhead, hcount, hfirst⟩
    obtain ⟨rest, rfl⟩ := List.head?_eq_some_iff.1 hhead
    rw [List.count_cons_self, List.count_cons_of_ne (by decide)] at hcount
    cases hcut : takeClosing 0 rest with
    | none =>
        -- The first bracket would stay open, and then the counts differ.
        obtain ⟨e, hlevel⟩ := exists_level hcut
        have hopen := (level_eq_some_iff.1 hlevel).2
        omega
    | some cut =>
        obtain ⟨w, hw, hlevel⟩ := level_of_takeClosing hcut
        have hrest := takeClosing_append hcut
        have hbalanced : Balanced w := hlevel
        have hwhole : enclose w = '(' :: rest := by
          by_contra hproper
          have hbefore : enclose w <+: '(' :: rest := ⟨cut.2, by rw [← hrest, hw]; rfl⟩
          exact hfirst _ hbefore (List.cons_ne_nil _ _) hproper hbalanced.isGroup_enclose.2.1
        exact ⟨w, hbalanced, hwhole.symm⟩
  · rintro ⟨w, hw, rfl⟩
    exact hw.isGroup_enclose

end Bracket

/-! ### Gaps between tokens -/

namespace Token

open Text (Blanks isBlank)

/-- The text of the token is what tokens of its kind are written as: a literal, or a group. Operators
    are written as their symbols by definition. -/
def IsLexeme : Token → Prop
  | number literal => Numeral.IsLiteral literal
  | operator _ => True
  | group text => Bracket.IsGroup text

/-- The two descriptions of the tokens that the scanner can make agree. -/
theorem isLexeme_iff {token : Token} : token.IsLexeme ↔ token.WellFormed := by
  cases token with
  | number literal => exact Iff.rfl
  | operator op => exact Iff.rfl
  | group text => exact Bracket.isGroup_iff

/-- The texts of the tokens in a row, with the first gap before them and one more behind each. -/
def weave : List Text → List Token → Text
  | gap :: gaps, token :: tokens => gap ++ (token.text ++ weave gaps tokens)
  | gaps, _ => gaps.flatten

/-- The gaps fit the tokens: they are nothing but blanks, there is one before the first token and one
    behind each, and none is empty between two literals. -/
structure Parts (gaps : List Text) (tokens : List Token) : Prop where
  length : gaps.length = tokens.length + 1
  blanks : ∀ gap ∈ gaps, Blanks gap
  between : ∀ i literal literal', tokens[i]? = some (number literal) →
    tokens[i + 1]? = some (number literal') → gaps[i + 1]? ≠ some []

/-- The gap behind a literal keeps it apart from the next one exactly if there is a blank in it. -/
theorem apart_weave_iff {token : Token} {gap : Text} {gaps : List Text} {tokens : List Token}
    (hgap : Blanks gap) (htokens : ∀ token ∈ tokens, token.WellFormed) :
    token.Apart (weave (gap :: gaps) tokens) tokens ↔
      ∀ literal literal', token = number literal → tokens[0]? = some (number literal') → gap ≠ [] := by
  rw [← List.head?_eq_getElem?]
  constructor
  · rintro hapart literal literal' rfl hnext rfl
    obtain ⟨c, hc, hblank⟩ := hapart literal literal' rfl hnext
    -- Without a gap the next literal starts here, with a digit.
    obtain ⟨more, rfl⟩ := List.head?_eq_some_iff.1 hnext
    obtain ⟨d, rest, htext, hdigit⟩ := (htokens _ List.mem_cons_self).head
    rw [weave, List.nil_append, htext] at hc
    cases hc
    rw [hblank] at hdigit
    cases hdigit
  · intro hne literal literal' htoken hnext
    cases gap with
    | nil => exact absurd rfl (hne literal literal' htoken hnext)
    | cons c gap =>
        refine ⟨c, ?_, hgap c List.mem_cons_self⟩
        cases tokens <;> rfl

/-- A first gap and token may stand before others, unless this would join two numbers. -/
theorem parts_cons_iff {gap : Text} {gaps : List Text} {token : Token} {tokens : List Token} :
    Parts (gap :: gaps) (token :: tokens) ↔
      Blanks gap ∧ Parts gaps tokens ∧
        ∀ literal literal', token = number literal → tokens[0]? = some (number literal') →
          gaps[0]? ≠ some [] := by
  constructor
  · rintro ⟨hlength, hblanks, hbetween⟩
    refine ⟨hblanks gap List.mem_cons_self, ⟨Nat.succ.inj hlength, ?_, ?_⟩, ?_⟩
    · exact fun gap' hmem => hblanks gap' (List.mem_cons_of_mem gap hmem)
    · exact fun i => hbetween (i + 1)
    · rintro literal literal' rfl hnext
      exact hbetween 0 literal literal' rfl hnext
  · rintro ⟨hgap, ⟨hlength, hblanks, hbetween⟩, hfirst⟩
    refine ⟨congrArg (· + 1) hlength, List.forall_mem_cons.2 ⟨hgap, hblanks⟩, ?_⟩
    intro i literal literal' htoken hnext
    cases i with
    | zero => exact hfirst literal literal' (Option.some.inj htoken) hnext
    | succ i => exact hbetween i literal literal' htoken hnext

/-- The gaps of a spelling can be collected, and gaps between tokens spell them. -/
theorem spells_iff_weave {text : Text} {tokens : List Token} :
    Spells text tokens ↔
      (∀ token ∈ tokens, token.WellFormed) ∧ ∃ gaps, Parts gaps tokens ∧ text = weave gaps tokens := by
  induction tokens generalizing text with
  | nil =>
      constructor
      · intro h
        cases h with
        | nil hgap =>
            refine ⟨fun token hmem => absurd hmem List.not_mem_nil, [text], ⟨rfl, ?_, ?_⟩, ?_⟩
            · exact fun gap hmem => by rwa [List.mem_singleton.1 hmem]
            · intro i literal literal' htoken
              cases htoken
            · exact (List.append_nil text).symm
      · rintro ⟨-, gaps, ⟨hlength, hblanks, -⟩, rfl⟩
        obtain ⟨gap, rfl⟩ := List.length_eq_one_iff.1 hlength
        have htext : weave [gap] [] = gap := List.append_nil gap
        rw [htext]
        exact .nil (hblanks gap List.mem_cons_self)
  | cons token tokens ih =>
      constructor
      · intro h
        cases h with
        | @cons gap rest _ _ hgap htoken hapart hrest =>
            obtain ⟨hwell, gaps, hparts, rfl⟩ := ih.1 hrest
            obtain ⟨next, gaps, rfl⟩ := List.exists_cons_of_length_eq_add_one hparts.length
            refine ⟨List.forall_mem_cons.2 ⟨htoken, hwell⟩, gap :: next :: gaps, ?_, rfl⟩
            have hnext := (apart_weave_iff (hparts.blanks next List.mem_cons_self) hwell).1 hapart
            refine parts_cons_iff.2 ⟨hgap, hparts, ?_⟩
            intro literal literal' hliteral hliteral' hnil
            exact hnext literal literal' hliteral hliteral' (Option.some.inj hnil)
      · rintro ⟨hwell, gaps, hparts, rfl⟩
        obtain ⟨gap, gaps, rfl⟩ := List.exists_cons_of_length_eq_add_one hparts.length
        obtain ⟨hgap, hrest, hbetween⟩ := parts_cons_iff.1 hparts
        obtain ⟨htoken, hwell⟩ := List.forall_mem_cons.1 hwell
        obtain ⟨next, gaps, rfl⟩ := List.exists_cons_of_length_eq_add_one hrest.length
        refine .cons hgap htoken ?_ (ih.2 ⟨hwell, next :: gaps, hrest, rfl⟩)
        apply (apart_weave_iff (hrest.blanks next List.mem_cons_self) hwell).2
        rintro literal literal' hliteral hliteral' rfl
        exact hbetween literal literal' hliteral hliteral' rfl

/-- The scanner reads a text as a list of tokens exactly if the text is the row of their texts, each
    written as tokens of its kind are, with gaps of blanks around them. So nothing is lost, a literal
    goes on as long as it can, and a group ends at the bracket that closes it. -/
theorem scan_eq_ok_iff_weave {text : Text} {tokens : List Token} :
    scan text = .ok tokens ↔
      (∀ token ∈ tokens, token.IsLexeme) ∧ ∃ gaps, Parts gaps tokens ∧ text = weave gaps tokens := by
  simp only [isLexeme_iff]
  exact scan_eq_ok_iff_spells.trans spells_iff_weave

end Token

end Calculator
