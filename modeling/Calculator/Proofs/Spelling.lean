/-
Module: Calculator.Proofs.Spelling
Layer: Proofs
Purpose: Which texts spell a list of tokens. `Spells` puts any blanks before, between and behind the
  tokens, each token written as the scanner would accept it, with at least one blank between two
  literals in a row. The scanner reads a text as a list of tokens exactly when the text spells them,
  so cutting a text at an operator, or joining two texts by one, cuts or joins the tokens.
Imports: Calculator.Token.Scan, Calculator.Proofs.Bracket, Calculator.Proofs.Literal
Trusted boundary: none (fully proved)
Main exports: Token.WellFormed, Token.Spells, Token.lex_text_append, Token.lex_eq_ok_iff,
  Token.scan_eq_ok_iff_spells, Token.Spells.join, Token.Spells.cut, Token.Spells.cut_at
-/
import Calculator.Token.Scan
import Calculator.Proofs.Bracket
import Calculator.Proofs.Literal

namespace Calculator

/-- Nothing but blanks. -/
def Text.Blanks (gap : Text) : Prop := ∀ c ∈ gap, Text.isBlank c = true

theorem Text.blanks_nil : Blanks [] := by
  intro c hc
  cases hc

theorem Text.blanks_singleton {c : Char} (h : isBlank c = true) : Blanks [c] := by
  intro d hd
  rw [List.mem_singleton.1 hd]
  exact h

namespace Token

open Text (Blanks isBlank)

/-- The token is written as a token of its kind: a plain literal, or a balanced text in brackets. -/
def WellFormed : Token → Prop
  | number literal => Numeral.IsLiteral literal
  | operator _ => True
  | group text => ∃ w, Bracket.Balanced w ∧ text = Bracket.enclose w

/-- Between two literals in a row stands a blank. -/
def Apart (token : Token) (rest : Text) (tokens : List Token) : Prop :=
  ∀ literal literal', token = number literal → number literal' ∈ tokens.head? →
    ∃ c ∈ rest.head?, isBlank c = true

/-- The text spells the tokens. -/
inductive Spells : Text → List Token → Prop where
  | nil {gap : Text} : Blanks gap → Spells gap []
  | cons {gap rest : Text} {token : Token} {tokens : List Token} :
      Blanks gap → token.WellFormed → token.Apart rest tokens → Spells rest tokens →
        Spells (gap ++ (token.text ++ rest)) (token :: tokens)

/-- A literal cannot go on into the text. -/
def Stops (token : Token) (rest : Text) : Prop :=
  ∀ literal, token = number literal → Numeral.Ends rest

/-! ### First characters -/

/-- No digit is blank. -/
theorem isBlank_of_isDigit {c : Char} (h : c.isDigit = true) : isBlank c = false := by
  simp only [Char.isDigit, Bool.and_eq_true, decide_eq_true_eq, ge_iff_le, UInt32.le_iff_toNat_le] at h
  have hlow : 48 ≤ c.toNat := h.1
  have hhigh : c.toNat ≤ 57 := h.2
  simp only [isBlank, Text.blankRanges, List.any_cons, List.any_nil]
  simp
  omega

/-- No operator is blank. -/
theorem isBlank_symbol (op : Operator) : isBlank op.symbol = false := by
  cases op <;> decide

/-- A blank ends a literal. -/
theorem ends_of_isBlank {c : Char} (rest : Text) (h : isBlank c = true) : Numeral.Ends (c :: rest) := by
  apply Numeral.ends_cons
  · cases hdigit : c.isDigit with
    | true =>
        rw [isBlank_of_isDigit hdigit] at h
        cases h
    | false => rfl
  · rintro rfl
    exact absurd h (by decide)

/-- An operator ends a literal. -/
theorem ends_symbol (op : Operator) (rest : Text) : Numeral.Ends (op.symbol :: rest) := by
  cases op <;> exact Numeral.ends_cons rest (by decide) (by decide)

/-- A token starts with its operator, an opening bracket or a digit. -/
theorem WellFormed.head {token : Token} (h : token.WellFormed) :
    ∃ c rest, token.text = c :: rest ∧ isBlank c = false := by
  cases token with
  | number literal =>
      obtain ⟨c, rest, hliteral, hc⟩ := Numeral.IsLiteral.head h
      exact ⟨c, rest, hliteral, isBlank_of_isDigit hc⟩
  | operator op => exact ⟨op.symbol, [], rfl, isBlank_symbol op⟩
  | group text =>
      obtain ⟨w, -, rfl⟩ := h
      exact ⟨'(', w ++ [')'], rfl, by decide⟩

/-! ### The equations of the scanner -/

theorem lex_cons_of_isBlank {c : Char} (rest : Text) (h : isBlank c = true) :
    lex (c :: rest) = lex rest := by
  rw [lex, if_pos h]

/-- Blanks at the start of a text are passed over. -/
theorem lex_blanks_append {gap : Text} (h : Blanks gap) (rest : Text) :
    lex (gap ++ rest) = lex rest := by
  induction gap with
  | nil => rfl
  | cons c gap ih =>
      rw [List.cons_append, lex_cons_of_isBlank _ (h c List.mem_cons_self)]
      exact ih fun d hd => h d (List.mem_cons_of_mem c hd)

/-- A token that is read is the first one, and the scanner goes on behind it. -/
theorem lex_of_readToken {c : Char} {rest tail : Text} {token : Token} (hblank : isBlank c = false)
    (hread : readToken c rest = .ok (token, tail)) :
    lex (c :: rest) = (lex tail).map (token :: ·) := by
  rw [lex, if_neg (by rw [hblank]; decide)]
  split
  · rename_i stop hstop
    rw [hread] at hstop
    cases hstop
  · rename_i token' tail' htoken
    rw [hread] at htoken
    cases htoken
    cases lex tail <;> rfl

/-- What stops a token stops the scanner. -/
theorem lex_of_readToken_error {c : Char} {rest : Text} {stop : Stop} (hblank : isBlank c = false)
    (hread : readToken c rest = .error stop) : lex (c :: rest) = .error stop := by
  rw [lex, if_neg (by rw [hblank]; decide)]
  split
  · rename_i stop' hstop
    rw [hread] at hstop
    cases hstop
    rfl
  · rename_i htoken
    rw [hread] at htoken
    cases htoken

/-- An operator is a token of its own. -/
theorem readToken_operator (op : Operator) (rest : Text) :
    readToken op.symbol rest = .ok (operator op, rest) := by
  rw [readToken, Operator.ofSymbol?_symbol]

theorem lex_symbol (op : Operator) (rest : Text) :
    lex (op.symbol :: rest) = (lex rest).map (operator op :: ·) :=
  lex_of_readToken (isBlank_symbol op) (readToken_operator op rest)

/-- A balanced text between brackets is read as one group. -/
theorem readToken_group {w : Text} (hw : Bracket.Balanced w) (rest : Text) :
    readToken '(' (w ++ ')' :: rest) = .ok (group (Bracket.enclose w), rest) := by
  have hcut := Bracket.takeGroup_enclose hw rest
  simp only [Bracket.enclose, List.cons_append, List.append_assoc, List.nil_append] at hcut
  simp only [readToken, show Operator.ofSymbol? '(' = none from rfl, if_true, hcut, Bracket.enclose]

/-- No digit is an operator. -/
theorem ofSymbol?_of_isDigit {c : Char} (h : c.isDigit = true) : Operator.ofSymbol? c = none := by
  cases hop : Operator.ofSymbol? c with
  | none => rfl
  | some op =>
      rw [Operator.ofSymbol?_eq_some_iff.1 hop] at h
      cases op <;> exact absurd h (by decide)

/-- A literal is read up to its end. -/
theorem readToken_number {c : Char} {literal rest : Text} (hliteral : Numeral.IsLiteral (c :: literal))
    (hrest : Numeral.Ends rest) :
    readToken c (literal ++ rest) = .ok (number (c :: literal), rest) := by
  obtain ⟨d, _, heq, hdigit⟩ := hliteral.head
  cases heq
  have hopen : c ≠ '(' := by
    rintro rfl
    exact absurd hdigit (by decide)
  have hcut := Numeral.takeLiteral_append_of_ends hliteral hrest
  rw [List.cons_append] at hcut
  simp only [readToken, ofSymbol?_of_isDigit hdigit, hopen, if_false, hcut]

/-- A token at the start of a text is read whole. -/
theorem lex_text_append {token : Token} {rest : Text} (htoken : token.WellFormed)
    (hstops : token.Stops rest) : lex (token.text ++ rest) = (lex rest).map (token :: ·) := by
  cases token with
  | number literal =>
      obtain ⟨c, tail, rfl, hdigit⟩ := Numeral.IsLiteral.head htoken
      exact lex_of_readToken (isBlank_of_isDigit hdigit) (readToken_number htoken (hstops _ rfl))
  | operator op => exact lex_symbol op rest
  | group text =>
      obtain ⟨w, hw, rfl⟩ := htoken
      have hread := lex_of_readToken (by decide) (readToken_group hw rest)
      simpa only [text, Bracket.enclose, List.cons_append, List.append_assoc, List.nil_append]
        using hread

/-- A character with which no token starts stops the scanner. -/
theorem lex_stray {c : Char} (rest : Text) (hblank : isBlank c = false)
    (hop : Operator.ofSymbol? c = none) (hopen : c ≠ '(') (hdigit : c.isDigit = false) :
    lex (c :: rest) = .error (.stray c rest) := by
  apply lex_of_readToken_error hblank
  simp only [readToken, hop, hopen, if_false, Numeral.takeLiteral_eq_nil rest hdigit]

/-! ### Reading is spelling -/

/-- What the scanner reads is well formed, and no digit follows a literal. -/
theorem wellFormed_of_readToken {c : Char} {rest tail : Text} {token : Token}
    (h : readToken c rest = .ok (token, tail)) :
    token.WellFormed ∧
      ∀ literal, token = number literal → ∀ d ∈ tail.head?, d.isDigit = false := by
  unfold readToken at h
  split at h
  · cases h
    refine ⟨trivial, ?_⟩
    intro literal hliteral
    cases hliteral
  · split at h
    · split at h
      · rename_i taken tail' hgroup
        cases h
        obtain ⟨w, hw, htaken, -⟩ := Bracket.takeGroup_eq_ok_iff.1 hgroup
        refine ⟨⟨w, hw, htaken⟩, ?_⟩
        intro literal hliteral
        cases hliteral
      · cases h
    · split at h
      · cases h
      · rename_i literal tail' hne hliteral
        cases h
        obtain ⟨hplain, hend⟩ := Numeral.isLiteral_of_takeLiteral hliteral fun hnil => hne hnil
        exact ⟨hplain, fun _ _ => hend⟩

/-- A spelling starts with a blank or with its first token. -/
theorem Spells.head {text : Text} {tokens : List Token} (h : Spells text tokens) {c : Char}
    (hc : c ∈ text.head?) :
    isBlank c = true ∨ ∃ token more, tokens = token :: more ∧ token.WellFormed ∧
      c ∈ token.text.head? := by
  cases h with
  | nil hgap =>
      cases text with
      | nil => cases hc
      | cons d rest =>
          cases hc
          exact Or.inl (hgap c List.mem_cons_self)
  | @cons gap rest token more hgap htoken hapart hrest =>
      cases gap with
      | nil =>
          obtain ⟨d, tail, htext, -⟩ := htoken.head
          refine Or.inr ⟨token, more, rfl, htoken, ?_⟩
          rw [htext] at hc ⊢
          exact hc
      | cons d gap =>
          cases hc
          exact Or.inl (hgap c List.mem_cons_self)

/-- Behind a token that stands apart, a literal stops. -/
theorem Spells.stops {token : Token} {rest : Text} {tokens : List Token} (h : Spells rest tokens)
    (hapart : token.Apart rest tokens) : token.Stops rest := by
  rintro literal rfl
  intro c hc
  rcases h.head hc with hblank | ⟨next, more, rfl, hnext, hhead⟩
  · exact ends_of_isBlank [] hblank c rfl
  · cases next with
    | number literal' =>
        obtain ⟨d, hd, hblank⟩ := hapart literal literal' rfl rfl
        rw [Option.mem_unique hc hd]
        exact ends_of_isBlank [] hblank d rfl
    | operator op =>
        cases hhead
        exact ends_symbol op [] _ rfl
    | group text =>
        obtain ⟨w, -, rfl⟩ := hnext
        cases hhead
        exact ⟨rfl, by decide⟩

/-- A text that spells tokens is scanned as them. -/
theorem lex_of_spells {text : Text} {tokens : List Token} (h : Spells text tokens) :
    lex text = .ok tokens := by
  induction h with
  | @nil gap hgap =>
      have := lex_blanks_append hgap []
      rw [List.append_nil] at this
      rw [this, lex]
  | @cons gap rest token tokens hgap htoken hapart hrest ih =>
      rw [lex_blanks_append hgap, lex_text_append htoken (hrest.stops hapart), ih]
      rfl

/-- A blank may stand in front of any spelling. -/
theorem Spells.blank {c : Char} {text : Text} {tokens : List Token} (hc : isBlank c = true)
    (h : Spells text tokens) : Spells (c :: text) tokens := by
  have hcons : ∀ {gap : Text}, Blanks gap → Blanks (c :: gap) := by
    intro gap hgap d hd
    rcases List.mem_cons.1 hd with rfl | hd
    · exact hc
    · exact hgap d hd
  cases h with
  | nil hgap => exact .nil (hcons hgap)
  | cons hgap htoken hapart hrest => exact .cons (hcons hgap) htoken hapart hrest

/-- Behind a literal that was read stands no digit, so a blank stands before a literal that follows. -/
theorem apart_of_readToken {c : Char} {rest before behind : Text} {token : Token} {tokens : List Token}
    (hread : readToken c rest = .ok (token, before ++ behind)) (hbefore : Spells before tokens) :
    token.Apart before tokens := by
  obtain ⟨-, hend⟩ := wellFormed_of_readToken hread
  rintro literal literal' rfl hnext
  cases hbefore with
  | nil => cases hnext
  | @cons gap _ next more hgap hwell hapart hmore =>
      cases hnext
      cases gap with
      | nil =>
          obtain ⟨d, _, hd, hdigit⟩ := Numeral.IsLiteral.head hwell
          have := hend _ rfl d (by simp [text, hd])
          rw [hdigit] at this
          cases this
      | cons d gap => exact ⟨d, rfl, hgap d List.mem_cons_self⟩

/-- What is scanned spells the tokens. -/
theorem spells_of_lex {text : Text} {tokens : List Token} (h : lex text = .ok tokens) :
    Spells text tokens := by
  fun_induction lex text generalizing tokens with
  | case1 =>
      cases h
      exact .nil Text.blanks_nil
  | case2 c rest hblank ih => exact (ih h).blank hblank
  | case3 => cases h
  | case4 => cases h
  | case5 c rest _ token tail hread tokens' htail ih =>
      cases h
      obtain ⟨htoken, -⟩ := wellFormed_of_readToken hread
      have hrest := ih htail
      have hapart := @apart_of_readToken c rest tail [] token tokens' (by rwa [List.append_nil]) hrest
      rw [← readToken_append hread]
      exact @Spells.cons [] _ _ _ Text.blanks_nil htoken hapart hrest

/-- The scanner reads a text as a list of tokens exactly when the text spells them. -/
theorem lex_eq_ok_iff {text : Text} {tokens : List Token} :
    lex text = .ok tokens ↔ Spells text tokens :=
  ⟨spells_of_lex, lex_of_spells⟩

/-- The scanner gives the tokens that the text spells. -/
theorem scan_eq_ok_iff_spells {text : Text} {tokens : List Token} :
    scan text = .ok tokens ↔ Spells text tokens :=
  scan_eq_ok_iff.trans lex_eq_ok_iff

/-- Only tokens that the scanner can make are spelled. -/
theorem Spells.wellFormed {text : Text} {tokens : List Token} (h : Spells text tokens) :
    ∀ token ∈ tokens, token.WellFormed := by
  induction h with
  | nil =>
      intro token hmem
      cases hmem
  | cons _ htoken _ _ ih =>
      intro token hmem
      rcases List.mem_cons.1 hmem with rfl | hmem
      · exact htoken
      · exact ih token hmem

/-- A text spells one list of tokens at most. -/
theorem Spells.unique {text : Text} {tokens tokens' : List Token} (h : Spells text tokens)
    (h' : Spells text tokens') : tokens = tokens' := by
  have hlex := lex_of_spells h
  rw [lex_of_spells h'] at hlex
  injection hlex with htokens
  exact htokens.symm

/-- A token between blanks. -/
theorem Spells.single {before behind : Text} {token : Token} (hbefore : Blanks before)
    (htoken : token.WellFormed) (hbehind : Blanks behind) :
    Spells (before ++ (token.text ++ behind)) [token] := by
  refine .cons hbefore htoken ?_ (.nil hbehind)
  intro _ _ _ hnext
  cases hnext

/-! ### Operators as seams -/

/-- A token has a text. -/
theorem Spells.ne_nil {text : Text} {token : Token} {tokens : List Token}
    (h : Spells text (token :: tokens)) : text ≠ [] := by
  cases h with
  | cons hgap htoken hapart hrest =>
      obtain ⟨c, tail, htext, -⟩ := htoken.head
      rw [htext]
      simp

/-- An operator behind the rest of a spelling changes nothing for the literals before it. -/
theorem Spells.apart_seam {rest : Text} {tokens : List Token} (h : Spells rest tokens) (token : Token)
    (op : Operator) (right : Text) (behind : List Token) :
    token.Apart (rest ++ op.symbol :: right) (tokens ++ operator op :: behind) ↔
      token.Apart rest tokens := by
  cases tokens with
  | nil =>
      constructor
      · rintro - literal literal' - hnext
        cases hnext
      · rintro - literal literal' - hnext
        cases hnext
  | cons next more =>
      cases rest with
      | nil => exact absurd rfl h.ne_nil
      | cons c rest => exact Iff.rfl

/-- Two spellings around an operator spell the tokens around it. -/
theorem Spells.join {left right : Text} {before behind : List Token} (hleft : Spells left before)
    (op : Operator) (hright : Spells right behind) :
    Spells (left ++ op.symbol :: right) (before ++ operator op :: behind) := by
  induction hleft with
  | @nil gap hgap =>
      have hapart : (operator op).Apart right behind := by
        intro literal literal' hliteral
        cases hliteral
      exact @Spells.cons gap right (operator op) behind hgap trivial hapart hright
  | @cons gap rest token tokens hgap htoken hapart hrest ih =>
      rw [List.append_assoc, List.append_assoc]
      exact .cons hgap htoken ((hrest.apart_seam token op right behind).2 hapart) ih

/-- A spelling of tokens around an operator falls into spellings of both sides. -/
theorem Spells.cut {text : Text} {before behind : List Token} {op : Operator}
    (h : Spells text (before ++ operator op :: behind)) :
    ∃ left right, text = left ++ op.symbol :: right ∧ Spells left before ∧ Spells right behind := by
  induction before generalizing text with
  | nil =>
      cases h with
      | @cons gap rest _ _ hgap htoken hapart hrest => exact ⟨gap, rest, rfl, .nil hgap, hrest⟩
  | cons token before ih =>
      cases h with
      | @cons gap rest _ _ hgap htoken hapart hrest =>
          obtain ⟨left, right, rfl, hleft, hright⟩ := ih hrest
          refine ⟨gap ++ (token.text ++ left), right, ?_, ?_, hright⟩
          · rw [List.append_assoc, List.append_assoc]
          · exact .cons hgap htoken ((hleft.apart_seam token op right behind).1 hapart) hleft

/-! ### Operators between balanced texts -/

theorem balanced_symbol (op : Operator) : Bracket.Balanced [op.symbol] := by
  cases op <;> rfl

theorem balanced_blanks {gap : Text} (h : Blanks gap) : Bracket.Balanced gap :=
  Bracket.level_eq_of_forall 0 (by decide) (by decide) h

theorem balanced_literal {literal : Text} (h : Numeral.IsLiteral literal) :
    Bracket.Balanced literal :=
  Bracket.level_eq_of_forall 0 (by decide) (by decide) h.forall_mem

/-- The text of a token is balanced. -/
theorem WellFormed.balanced {token : Token} (h : token.WellFormed) :
    Bracket.Balanced token.text := by
  cases token with
  | number literal => exact balanced_literal h
  | operator op => exact balanced_symbol op
  | group text =>
      obtain ⟨w, hw, rfl⟩ := h
      exact hw.enclose

/-- A text that spells tokens is balanced. -/
theorem Spells.balanced {text : Text} {tokens : List Token} (h : Spells text tokens) :
    Bracket.Balanced text := by
  induction h with
  | nil hgap => exact balanced_blanks hgap
  | cons hgap htoken _ _ ih => exact (balanced_blanks hgap).append (htoken.balanced.append ih)

/-- No operator is among blanks. -/
theorem symbol_not_mem_blanks {gap : Text} (h : Blanks gap) (op : Operator) : op.symbol ∉ gap := by
  intro hmem
  have hblank := h _ hmem
  rw [isBlank_symbol] at hblank
  cases hblank

/-- No operator is in a literal. -/
theorem symbol_not_mem_literal {literal : Text} (h : Numeral.IsLiteral literal) (op : Operator) :
    op.symbol ∉ literal := by
  intro hmem
  have hsymbol := h.forall_mem _ hmem
  cases op <;> exact absurd hsymbol (by decide)

/-- A character of a text in two parts stands in the first or in the second. -/
theorem append_cons_eq_append {left right s t : Text} {c : Char} (h : left ++ c :: right = s ++ t) :
    (∃ middle, s = left ++ c :: middle ∧ right = middle ++ t) ∨
      ∃ middle, left = s ++ middle ∧ t = middle ++ c :: right := by
  rcases List.append_eq_append_iff.1 h with ⟨middle, rfl, hmiddle⟩ | ⟨middle, rfl, rfl⟩
  · cases middle with
    | nil => exact Or.inr ⟨[], by simp, hmiddle.symm⟩
    | cons d middle =>
        injection hmiddle with hhead htail
        subst hhead
        exact Or.inl ⟨middle, rfl, htail⟩
  · exact Or.inr ⟨middle, rfl, rfl⟩

/-- Inside a group no operator has balanced text before it, since the bracket of the group is open. -/
theorem enclose_ne_of_balanced {w before behind : Text} {op : Operator} (hw : Bracket.Balanced w)
    (hbefore : Bracket.Balanced before) : before ++ op.symbol :: behind ≠ Bracket.enclose w := by
  intro h
  cases before with
  | nil =>
      injection h with hhead _
      cases op <;> exact absurd hhead (by decide)
  | cons c before =>
      injection h with hhead htail
      subst hhead
      rcases append_cons_eq_append htail with ⟨rest, rfl, -⟩ | ⟨rest, -, hrest⟩
      · exact hw.level_one_ne_zero hbefore
      · cases rest with
        | nil =>
            injection hrest with hclose _
            cases op <;> exact absurd hclose (by decide)
        | cons d rest => cases rest <;> cases hrest

/-- A token in which an operator follows balanced text is that operator. -/
theorem WellFormed.eq_operator {token : Token} {before behind : Text} {op : Operator}
    (h : token.WellFormed) (htext : before ++ op.symbol :: behind = token.text)
    (hbefore : Bracket.Balanced before) : token = operator op ∧ before = [] ∧ behind = [] := by
  cases token with
  | number literal =>
      have hmem : op.symbol ∈ text (number literal) := by
        rw [← htext]
        exact List.mem_append_right _ List.mem_cons_self
      exact absurd hmem (symbol_not_mem_literal h op)
  | operator op' =>
      cases before with
      | nil =>
          injection htext with hhead htail
          have hop := Operator.ofSymbol?_symbol op
          rw [hhead, Operator.ofSymbol?_symbol] at hop
          cases hop
          exact ⟨rfl, rfl, htail⟩
      | cons c before => cases before <;> cases htext
  | group text =>
      obtain ⟨w, hw, rfl⟩ := h
      exact absurd htext (enclose_ne_of_balanced hw hbefore)

/-- Where balanced text stands before an operator, the operator is a token of its own. -/
theorem Spells.cut_at {left right : Text} {op : Operator} {tokens : List Token}
    (h : Spells (left ++ op.symbol :: right) tokens) (hleft : Bracket.Balanced left) :
    ∃ before behind, tokens = before ++ operator op :: behind ∧ Spells left before ∧
      Spells right behind := by
  generalize htext : left ++ op.symbol :: right = text at h
  induction h generalizing left with
  | nil hgap =>
      rw [← htext] at hgap
      exact absurd (List.mem_append_right _ List.mem_cons_self) (symbol_not_mem_blanks hgap op)
  | @cons gap rest token tokens hgap htoken hapart hrest ih =>
      rcases append_cons_eq_append htext with ⟨middle, rfl, -⟩ | ⟨middle, rfl, hmiddle⟩
      · exact absurd (List.mem_append_right _ List.mem_cons_self) (symbol_not_mem_blanks hgap op)
      have hbalanced := hleft.of_append (balanced_blanks hgap)
      rcases append_cons_eq_append hmiddle.symm with ⟨tail, htail, rfl⟩ | ⟨tail, rfl, hrest'⟩
      · obtain ⟨rfl, rfl, rfl⟩ := htoken.eq_operator htail.symm hbalanced
        exact ⟨[], tokens, rfl, by simpa using Spells.nil hgap, hrest⟩
      · obtain ⟨before, behind, rfl, hbefore, hbehind⟩ :=
          ih (hbalanced.of_append htoken.balanced) hrest'.symm
        refine ⟨token :: before, behind, rfl, ?_, hbehind⟩
        rw [hrest'] at hapart
        exact .cons hgap htoken ((hbefore.apart_seam token op right behind).1 hapart) hbefore

end Token

end Calculator
