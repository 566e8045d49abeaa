/-
Module: Calculator.Proofs.Grammar
Layer: Proofs
Purpose: The language of the calculator. An expression is a term followed by any number of operators
  and terms, a term is a plain literal or an expression in brackets, and blanks may stand around each
  of them. The reader of texts does not follow this grammar: it counts brackets, scans one level at a
  time and splits at operators. With room in its limits it accepts exactly the texts that derive from
  the grammar and whose literals all round to finite doubles.
Imports: Calculator.Proofs.NumberText, Calculator.Proofs.ShuntingYard
Trusted boundary: human-reviewed spec
Main exports: Grammar.Phrase, Grammar.Derives, Grammar.Readable, Grammar.parse_ok_iff_derives
-/
import Calculator.Proofs.NumberText
import Calculator.Proofs.ShuntingYard

namespace Calculator.Grammar

open Text (Blanks)
open Token (Spells balanced_blanks balanced_literal balanced_symbol)
open Parse (Operand Alternates Builds BuildsAlone)

/-- The phrases of the grammar. -/
inductive Phrase where
  | expression
  | term
  deriving DecidableEq, Repr

/-- The text derives from the phrase, and these are its literals from left to right. -/
inductive Derives : Phrase → Text → List Text → Prop where
  | number {literal : Text} : Numeral.IsLiteral literal → Derives .term literal [literal]
  | bracket {inner : Text} {literals : List Text} :
      Derives .expression inner literals → Derives .term (Bracket.enclose inner) literals
  | single {before text behind : Text} {literals : List Text} :
      Blanks before → Derives .term text literals → Blanks behind →
        Derives .expression (before ++ (text ++ behind)) literals
  | chain {before text behind rest : Text} {literals more : List Text} (op : Operator) :
      Blanks before → Derives .term text literals → Blanks behind → Derives .expression rest more →
        Derives .expression (before ++ (text ++ (behind ++ op.symbol :: rest))) (literals ++ more)

/-! ### Derived texts are balanced -/

/-- Brackets are opened and closed in pairs in every phrase. -/
theorem Derives.balanced {phrase : Phrase} {text : Text} {literals : List Text}
    (h : Derives phrase text literals) : Bracket.Balanced text := by
  induction h with
  | number hliteral => exact balanced_literal hliteral
  | bracket _ ih => exact ih.enclose
  | single hbefore _ hbehind ih =>
      exact (balanced_blanks hbefore).append (ih.append (balanced_blanks hbehind))
  | chain op hbefore _ hbehind _ ih ihrest =>
      have hrest := (balanced_symbol op).append ihrest
      exact (balanced_blanks hbefore).append
        (ih.append ((balanced_blanks hbehind).append hrest))

/-! ### What derives is read -/

/-- A term is one operand that builds, an expression spells operands that build with operators between
    them. -/
def Readable : Phrase → Text → Prop
  | .term, text =>
      ∃ x : Operand, x.token.text = text ∧ x.token.WellFormed ∧ ∃ e, BuildsAlone x e
  | .expression, text =>
      ∃ tokens, Spells text tokens ∧ Alternates tokens ∧
        ∀ x : Operand, x.token ∈ tokens → ∃ e, BuildsAlone x e

/-- A finite literal is readable as a term. -/
theorem readable_number {literal : Text} (h : Numeral.IsLiteral literal)
    (hfinite : Numeral.Finite literal) : Readable .term literal := by
  obtain ⟨x, hx⟩ := (Numeral.read?_isSome_iff h).2 hfinite
  exact ⟨.number literal, rfl, h, .number x, 0, .number hx⟩

/-- Brackets around a readable expression make a readable term. -/
theorem readable_bracket {inner : Text} (hbalanced : Bracket.Balanced inner)
    (h : Readable .expression inner) : Readable .term (Bracket.enclose inner) := by
  obtain ⟨tokens, hspells, halternates, hoperands⟩ := h
  obtain ⟨height, expr, hbuilds⟩ := Parse.builds_of_alternates halternates hoperands
  have hscan : Token.scan (Bracket.stripOuter (Bracket.enclose inner)) = .ok tokens := by
    rw [Bracket.stripOuter_enclose]
    exact Token.scan_eq_ok_iff_spells.2 hspells
  exact ⟨.group (Bracket.enclose inner), rfl, ⟨inner, hbalanced, rfl⟩, expr, height + 1,
    .group hscan hbuilds⟩

/-- A readable term may have blanks around it. -/
theorem readable_single {before text behind : Text} (hbefore : Blanks before)
    (h : Readable .term text) (hbehind : Blanks behind) :
    Readable .expression (before ++ (text ++ behind)) := by
  obtain ⟨x, rfl, hwell, hbuilds⟩ := h
  refine ⟨[x.token], .single hbefore hwell hbehind, .operand x, ?_⟩
  intro y hy
  rw [List.mem_singleton] at hy
  rw [Parse.Operand.token_inj hy]
  exact hbuilds

/-- An operator between readable expressions makes one, whatever the ranks around it are. -/
theorem readable_chain {left right : Text} (op : Operator) (hleft : Readable .expression left)
    (hright : Readable .expression right) : Readable .expression (left ++ op.symbol :: right) := by
  obtain ⟨before, hspells, halternates, hoperands⟩ := hleft
  obtain ⟨behind, hspells', halternates', hoperands'⟩ := hright
  refine ⟨_, hspells.join op hspells', halternates.join op halternates', ?_⟩
  intro x hx
  rcases List.mem_append.1 hx with hx | hx
  · exact hoperands x hx
  · rcases List.mem_cons.1 hx with hx | hx
    · exact absurd hx (x.token_ne_operator op)
    · exact hoperands' x hx

/-- Where balanced text stands before an operator, both of its sides are readable. -/
theorem readable_cut {left right : Text} {op : Operator} (hleft : Bracket.Balanced left)
    (h : Readable .expression (left ++ op.symbol :: right)) :
    Readable .expression left ∧ Readable .expression right := by
  obtain ⟨tokens, hspells, halternates, hoperands⟩ := h
  obtain ⟨before, behind, rfl, hbefore, hbehind⟩ := hspells.cut_at hleft
  obtain ⟨halternates, halternates'⟩ := halternates.cut
  refine ⟨⟨before, hbefore, halternates, ?_⟩, ⟨behind, hbehind, halternates', ?_⟩⟩
  · intro x hx
    exact hoperands x (List.mem_append_left _ hx)
  · intro x hx
    exact hoperands x (List.mem_append_right _ (List.mem_cons_of_mem _ hx))

/-- Spelled tokens from which an expression is built are a readable text. -/
theorem readable_of_builds {height : Nat} {tokens : List Token} {expr : Expr} {text : Text}
    (h : Builds height tokens expr) (hspells : Spells text tokens) : Readable .expression text :=
  ⟨tokens, hspells, h.alternates, h.operands⟩

/-- A phrase whose literals are all finite is readable. -/
theorem Derives.readable {phrase : Phrase} {text : Text} {literals : List Text}
    (h : Derives phrase text literals) (hfinite : ∀ literal ∈ literals, Numeral.Finite literal) :
    Readable phrase text := by
  induction h with
  | number hliteral => exact readable_number hliteral (hfinite _ List.mem_cons_self)
  | bracket hinner ih => exact readable_bracket hinner.balanced (ih hfinite)
  | single hbefore _ hbehind ih => exact readable_single hbefore (ih hfinite) hbehind
  | @chain before text behind rest literals more op hbefore _ hbehind _ ih ihrest =>
      have hterm := ih fun literal hmem => hfinite literal (List.mem_append_left _ hmem)
      have hrest := ihrest fun literal hmem => hfinite literal (List.mem_append_right _ hmem)
      have hchain := readable_chain op (readable_single hbefore hterm hbehind) hrest
      simpa only [List.append_assoc] using hchain

/-! ### What is read derives -/

/-- Expressions around an operator are an expression, although the grammar takes terms off one end
    only. -/
theorem Derives.join {left right : Text} {literals more : List Text}
    (hleft : Derives .expression left literals) (op : Operator)
    (hright : Derives .expression right more) :
    Derives .expression (left ++ op.symbol :: right) (literals ++ more) := by
  generalize hphrase : Phrase.expression = phrase at hleft
  induction hleft with
  | number => cases hphrase
  | bracket => cases hphrase
  | @single before text behind literals hbefore hterm hbehind _ =>
      have := Derives.chain op hbefore hterm hbehind hright
      simpa only [List.append_assoc] using this
  | @chain before text behind rest literals more' op' hbefore hterm hbehind hrest _ ihrest =>
      have := Derives.chain op' hbefore hterm hbehind (ihrest rfl)
      simpa only [List.append_assoc, List.cons_append] using this

/-- A derivation of a term is one of any text in which the term stands between blanks. -/
theorem Derives.of_spells_operand {text : Text} {x : Operand} {literals : List Text}
    (hspells : Spells text [x.token]) (hterm : Derives .term x.token.text literals) :
    Derives .expression text literals := by
  cases hspells with
  | cons hgap _ _ hrest =>
      cases hrest with
      | nil hbehind => exact .single hgap hterm hbehind

/-- A text whose tokens build an expression has a derivation, and its literals are finite. -/
theorem derives_of_builds {height : Nat} {tokens : List Token} {expr : Expr} {text : Text}
    (h : Builds height tokens expr) (hspells : Spells text tokens) :
    ∃ literals, Derives .expression text literals ∧
      ∀ literal ∈ literals, Numeral.Finite literal := by
  induction h generalizing text with
  | @number literal x hx =>
      have hliteral : Numeral.IsLiteral literal := hspells.wellFormed _ List.mem_cons_self
      refine ⟨[literal], .of_spells_operand (x := .number literal) hspells (.number hliteral), ?_⟩
      intro l hl
      rw [List.mem_singleton.1 hl]
      exact (Numeral.read?_isSome_iff hliteral).1 ⟨x, hx⟩
  | @group height group tokens expr hscan _ ih =>
      obtain ⟨w, -, rfl⟩ := hspells.wellFormed _ List.mem_cons_self
      rw [Bracket.stripOuter_enclose] at hscan
      obtain ⟨literals, hinner, hfinite⟩ := ih (Token.scan_eq_ok_iff_spells.1 hscan)
      exact ⟨literals, .of_spells_operand (x := .group (Bracket.enclose w)) hspells (.bracket hinner),
        hfinite⟩
  | @split i j tokens split left right hsplit _ _ ihleft ihright =>
      rw [← Split.tokens_of_loosest? hsplit] at hspells
      obtain ⟨a, b, rfl, ha, hb⟩ := Token.Spells.cut hspells
      obtain ⟨literals, hleft, hfinite⟩ := ihleft ha
      obtain ⟨more, hright, hfinite'⟩ := ihright hb
      refine ⟨literals ++ more, hleft.join split.op hright, ?_⟩
      intro literal hmem
      rcases List.mem_append.1 hmem with hmem | hmem
      · exact hfinite literal hmem
      · exact hfinite' literal hmem

/-- With room for the characters of the text, reading succeeds exactly on the expressions of the
    grammar whose literals all denote finite doubles. -/
theorem parse_ok_iff_derives {limits : Limits} {text : Text} (hnesting : text.length ≤ limits.nesting)
    (hchain : text.length ≤ limits.chain) :
    (∃ expr, Parse.parse limits text = .ok expr) ↔
      ∃ literals, Derives .expression text literals ∧
        ∀ literal ∈ literals, Numeral.Finite literal := by
  simp only [Parse.parse_eq_ok_iff_of_le hnesting hchain]
  constructor
  · rintro ⟨expr, tokens, height, hspells, hbuilds⟩
    exact derives_of_builds hbuilds hspells
  · rintro ⟨literals, hderives, hfinite⟩
    obtain ⟨tokens, hspells, halternates, hoperands⟩ := hderives.readable hfinite
    obtain ⟨height, expr, hbuilds⟩ := Parse.builds_of_alternates halternates hoperands
    exact ⟨expr, tokens, height, hspells, hbuilds⟩

/-- The limits have room for the text, in which a sum in brackets is raised to a power. -/
theorem derives_power_of_sum :
    " (1 +2)^ 3.5".toList.length ≤ Limits.nesting {} ∧
      " (1 +2)^ 3.5".toList.length ≤ Limits.chain {} ∧
      (∃ expr, Parse.parse {} " (1 +2)^ 3.5".toList = .ok expr) ∧
      ∃ literals, Derives .expression " (1 +2)^ 3.5".toList literals ∧
        ∀ literal ∈ literals, Numeral.Finite literal := by
  have hparse : Parse.parse {} " (1 +2)^ 3.5".toList =
      .ok (.binary (.binary (.number (.ofBits 0x3ff0000000000000)) .add
        (.number (.ofBits 0x4000000000000000))) .pow (.number (.ofBits 0x400c000000000000))) := by
    decide +kernel
  refine ⟨by decide, by decide, ⟨_, hparse⟩, ?_⟩
  exact (@parse_ok_iff_derives {} _ (by decide) (by decide)).1 ⟨_, hparse⟩

end Calculator.Grammar
