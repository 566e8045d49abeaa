/-
Module: Calculator.Proofs.Respacing
Layer: Proofs
Purpose: Blanks carry no meaning. On tokens that differ by blanks inside groups, two runs of the builder
  take the same steps: the split is at the same operator, and the insides of groups are scanned alike.
  So respaced texts are read as the same expression or fail with the same kind of error. A text that is
  read has no blank between two characters of literals, since two numbers in a row are no expression,
  so all its blanks can be taken out.
Imports: Calculator.Proofs.Inorder, Calculator.Proofs.Limits, Calculator.Proofs.Spacing,
  Mathlib.Data.List.Chain
Trusted boundary: none (fully proved)
Main exports: Split.Spaced, Split.loosest?_spaced, Parse.buildAt_spaced, Parse.parse_spaced,
  Parse.not_joined_of_parse, Parse.agree_of_respaced
-/
import Calculator.Proofs.Inorder
import Calculator.Proofs.Limits
import Calculator.Proofs.Spacing
import Mathlib.Data.List.Chain

namespace Calculator

open Text (isBlank isNumeric Joined Respaced)

/-! ### One blank more -/

/-- Both splits are at the same operator, between tokens that differ by blanks inside groups. -/
structure Split.Spaced (first second : Split) : Prop where
  left : List.Forall₂ Token.Spaced first.left second.left
  op : first.op = second.op
  right : List.Forall₂ Token.Spaced first.right second.right

/-- Tokens that agree may be put in front of both splits. -/
theorem Split.Spaced.push {first second : Split} {token token' : Token}
    (htoken : Token.Spaced token token') (h : Spaced first second) :
    Spaced (first.push token) (second.push token') :=
  ⟨.cons htoken h.left, h.op, h.right⟩

/-- Blanks inside groups do not move the split. -/
theorem Split.loosest?_spaced {tokens tokens' : List Token}
    (h : List.Forall₂ Token.Spaced tokens tokens') :
    Option.Rel Split.Spaced (loosest? tokens) (loosest? tokens') := by
  induction h with
  | nil => exact .none
  | @cons token token' rest rest' htoken hrest ih =>
      generalize hbest : loosest? rest = best at ih
      generalize hbest' : loosest? rest' = best' at ih
      have hpush : Option.Rel Split.Spaced (best.map (Split.push token))
          (best'.map (Split.push token')) := by
        cases ih with
        | none => exact .none
        | some hsplit => exact .some (hsplit.push htoken)
      cases htoken with
      | group => simpa only [loosest?, hbest, hbest'] using hpush
      | same =>
          cases token with
          | number literal => simpa only [loosest?, hbest, hbest'] using hpush
          | group text => simpa only [loosest?, hbest, hbest'] using hpush
          | operator op =>
              have hhere : Split.Spaced ⟨[], op, rest⟩ ⟨[], op, rest'⟩ := ⟨.nil, rfl, hrest⟩
              simp only [loosest?, hbest, hbest']
              cases ih with
              | none => exact .some hhere
              | some hsplit =>
                  simp only [hsplit.op]
                  split
                  · exact .some hhere
                  · exact hpush

namespace Parse

/-- A step on tokens that differ by blanks inside groups gives results of one kind if its calls do. -/
theorem step_spaced {inside side : List Token → Except ParseError Expr} {tokens tokens' : List Token}
    (htokens : List.Forall₂ Token.Spaced tokens tokens')
    (hinside : ∀ inner inner', Token.totalWeight inner < Token.totalWeight tokens →
      List.Forall₂ Token.Spaced inner inner' → Agree ParseError.kind Eq (inside inner) (inside inner'))
    (hside : ∀ part part', Token.totalWeight part < Token.totalWeight tokens →
      List.Forall₂ Token.Spaced part part' → Agree ParseError.kind Eq (side part) (side part')) :
    Agree ParseError.kind Eq (step inside side tokens) (step inside side tokens') := by
  cases htokens with
  | nil => exact .error rfl
  | @cons token token' rest rest' htoken hrest =>
      cases hrest with
      | nil =>
          cases token with
          | number literal =>
              cases htoken
              exact .refl (fun _ => rfl) _
          | operator op =>
              cases htoken
              exact .error rfl
          | group text =>
              obtain ⟨text', rfl, hscan⟩ := htoken.exists_group
              simp only [step]
              generalize hfirst : Token.scan (Bracket.stripOuter text) = first at hscan ⊢
              generalize Token.scan (Bracket.stripOuter text') = second at hscan ⊢
              cases hscan with
              | error hkind => exact .error hkind
              | ok hinner =>
                  apply hinside _ _ ?_ hinner
                  simpa [Token.totalWeight] using Token.totalWeight_scan_stripOuter hfirst
      | @cons next next' more more' hnext hmore =>
          have hsplit := Split.loosest?_spaced (.cons htoken (.cons hnext hmore))
          simp only [step]
          generalize hfirst : Split.loosest? (token :: next :: more) = first at hsplit ⊢
          generalize Split.loosest? (token' :: next' :: more') = second at hsplit ⊢
          cases hsplit with
          | none => exact .error rfl
          | some hspaced =>
              obtain ⟨hleft, hright⟩ := Split.totalWeight_lt hfirst
              apply (hside _ _ hleft hspaced.left).bind
              intro left
              apply (hside _ _ hright hspaced.right).bind
              intro right
              rw [hspaced.op]
              exact .ok rfl

/-- Built from tokens that agree, expressions are the same and errors of the same kind. -/
theorem buildAt_spaced (limits : Limits) (nesting splits : Nat) {tokens tokens' : List Token}
    (h : List.Forall₂ Token.Spaced tokens tokens') :
    Agree ParseError.kind Eq (buildAt limits nesting splits tokens)
      (buildAt limits nesting splits tokens') := by
  rcases Nat.lt_or_ge limits.nesting nesting with hdeep | hdeep
  · rw [buildAt_nestedTooDeeply splits tokens hdeep, buildAt_nestedTooDeeply splits tokens' hdeep]
    exact .error rfl
  rcases Nat.lt_or_ge limits.chain splits with hlong | hlong
  · rw [buildAt_chainedTooLong tokens hdeep hlong, buildAt_chainedTooLong tokens' hdeep hlong]
    exact .error rfl
  rw [buildAt_eq_step tokens hdeep hlong, buildAt_eq_step tokens' hdeep hlong]
  apply step_spaced h
  · intro inner inner' _ hinner
    exact buildAt_spaced limits (nesting + 1) splits hinner
  · intro part part' _ hpart
    exact buildAt_spaced limits nesting (splits + 1) hpart
termination_by Token.totalWeight tokens

/-- A blank that joins and separates no number changes neither the expression nor the kind of error.
    -/
theorem parse_spaced (limits : Limits) {text text' : Text} (h : Text.Spaced text text') :
    Agree ParseError.kind Eq (parse limits text) (parse limits text') := by
  have hscan := Token.scan_spaced h
  unfold parse
  generalize Token.scan text = first at hscan ⊢
  generalize Token.scan text' = second at hscan ⊢
  cases hscan with
  | ok htokens => exact buildAt_spaced limits 0 0 htokens
  | error hkind => exact .error hkind

end Parse

/-! ### Blanks between literals -/

namespace Item

theorem isWord_of_isNumeric {c : Char} (h : isNumeric c = true) : isWord c = true := by
  simp only [isNumeric, Bool.or_eq_true, decide_eq_true_eq] at h
  rcases h with hdigit | rfl
  · have hrow : Numeral.IsRow [c] := Numeral.isRow_singleton hdigit
    exact isWord_of_mem_literal (.whole hrow) List.mem_cons_self
  · decide

/-- A text that ends inside a word ends with an operand. -/
theorem exists_operand_getLast? {text : Text} {c : Char} (hc : c ∈ text.getLast?)
    (hword : isWord c = true) : ∃ x, operand x ∈ (ofText text).getLast? := by
  fun_induction ofText text with
  | case1 => cases hc
  | case2 d rest op hop ih =>
      cases rest with
      | nil =>
          obtain rfl : d = c := by simpa using hc
          rw [ofSymbol?_of_isWord hword] at hop
          cases hop
      | cons e rest =>
          obtain ⟨x, hx⟩ := ih hc
          exact ⟨x, List.mem_getLast?_cons hx⟩
  | case3 d rest hop hgap ih =>
      cases rest with
      | nil =>
          obtain rfl : d = c := by simpa using hc
          rw [isWord_of_isGap hgap] at hword
          cases hword
      | cons e rest => exact ih hc
  | case4 d rest hop hgap ih =>
      cases hlast : (rest.dropWhile isWord).getLast? with
      | none =>
          rw [List.getLast?_eq_none_iff] at hlast
          exact ⟨d :: rest.takeWhile isWord, by simp [hlast, ofText]⟩
      | some e =>
          have hrest : e ∈ rest.getLast? := by
            rw [← List.takeWhile_append_dropWhile (p := isWord) (l := rest), List.getLast?_append, hlast]
            rfl
          cases Option.mem_unique hc (List.mem_getLast?_cons hrest)
          obtain ⟨x, hx⟩ := ih hlast
          exact ⟨x, List.mem_getLast?_cons hx⟩

end Item

/-- Of two neighbours in an expression, one is an operator. -/
theorem Expr.isChain_inorder (t : Expr) :
    (t.inorder.map Item.isOperator).IsChain fun x y => x = true ∨ y = true := by
  induction t with
  | number x => exact .singleton _
  | binary left op right ihleft ihright =>
      rw [inorder, List.map_append, List.map_cons, List.isChain_append, List.isChain_cons]
      refine ⟨ihleft, ⟨fun _ _ => Or.inl rfl, ihright⟩, ?_⟩
      intro x _ y hy
      cases hy
      exact Or.inr rfl

namespace Parse

/-- In a text that is read, no blank stands between two characters of literals. -/
theorem not_joined_of_parse {limits : Limits} {left right : Text} {c : Char} {t : Expr}
    (hc : isBlank c = true) (h : parse limits (left ++ c :: right) = .ok t) : ¬ Joined left right := by
  rintro ⟨hleft, hright⟩
  obtain ⟨d, hd, hnumeric⟩ := (Option.any_eq_true _ _).1 hleft
  obtain ⟨tokens, height, hspells, hbuilds, -⟩ := parse_eq_ok_iff.1 h
  have hkinds := Item.map_isOperator_eq (hbuilds.writes_inorder hspells)
  have hgap : Item.isGap c = true := by simp [Item.isGap, hc]
  have hitems : Item.ofText (left ++ c :: right) = Item.ofText left ++ Item.ofText right := by
    have hhead : ∀ f ∈ (c :: right).head?, Item.isWord f = false := by
      intro f hf
      cases hf
      exact Item.isWord_of_isGap hgap
    rw [Item.ofText_append left hhead, Item.ofText_gap right hgap]
  -- The items of the text are operands and operators where those of the expression are.
  have hchain := t.isChain_inorder
  rw [← hkinds, List.isChain_map, hitems, List.isChain_append] at hchain
  obtain ⟨x, hx⟩ := Item.exists_operand_getLast? hd (Item.isWord_of_isNumeric hnumeric)
  cases right with
  | nil => cases hright
  | cons e right =>
      rw [Item.ofText_word right (Item.isWord_of_isNumeric hright)] at hchain
      rcases hchain.2.2 _ hx _ rfl with hoperator | hoperator
      · cases hoperator
      · cases hoperator

/-- The blanks behind any part of a text that is read can be taken out. -/
theorem parse_without_blanks {limits : Limits} {left right : Text} {t : Expr}
    (h : parse limits (left ++ right) = .ok t) :
    parse limits (left ++ right.filter fun c => !isBlank c) = .ok t := by
  induction right generalizing left with
  | nil => exact h
  | cons c right ih =>
      cases hc : isBlank c with
      | true =>
          have hagree := parse_spaced limits (.blank hc (not_joined_of_parse hc h))
          rw [h] at hagree
          generalize hresult : parse limits (left ++ right) = result at hagree
          cases hagree with
          | ok heq =>
              cases heq
              simpa [hc] using ih hresult
      | false =>
          have hrest := @ih (left ++ [c]) (by simpa using h)
          simpa [hc] using hrest

/-- Blanks carry no meaning, at any depth: texts that differ by blanks, but not between two characters
    of literals, are read as the same expression or fail with errors of the same kind. All blanks of a
    text that is read can be taken out. -/
theorem agree_of_respaced (limits : Limits) :
    (∀ {text text' : Text}, Respaced text text' →
      Agree ParseError.kind Eq (parse limits text) (parse limits text')) ∧
      ∀ {text : Text} {t : Expr}, parse limits text = .ok t →
        parse limits (text.filter fun c => !isBlank c) = .ok t := by
  constructor
  · intro text text' h
    induction h with
    | rel _ _ hspaced => exact parse_spaced limits hspaced
    | refl _ => exact .refl (fun _ => rfl) _
    | symm _ _ _ ih => exact ih.symm
    | trans _ _ _ _ _ ih ih' => exact ih.trans ih'
  · intro text t h
    exact @parse_without_blanks limits [] text t h

/-- In `2*(1 3)` a blank can be put behind the bracket and the blank between the numbers replaced, but
    not taken out. -/
theorem agree_respaced_group :
    Respaced "2*(1 3)".toList "2*( 1\t3)".toList ∧
      Agree ParseError.kind Eq (parse {} "2*(1 3)".toList) (parse {} "2*( 1\t3)".toList) ∧
      ∃ t, parse {} " ( 1 +2 )".toList = .ok t ∧ parse {} "(1+2)".toList = .ok t := by
  have hspace : Text.Blanks [' '] := Text.blanks_singleton (by decide)
  have htab : Text.Blanks ['\t'] := Text.blanks_singleton (by decide)
  have hinserted := @Text.respaced_insert "2*(".toList "1 3)".toList _ hspace (by decide)
  have hreplaced := Text.respaced_replace "2*( 1".toList "3)".toList hspace (List.cons_ne_nil _ _) htab
    (List.cons_ne_nil _ _)
  have hrespaced : Respaced "2*(1 3)".toList "2*( 1\t3)".toList :=
    .trans _ _ _ hinserted hreplaced
  have hparse : parse {} " ( 1 +2 )".toList =
      .ok (.binary (.number (.ofBits 0x3ff0000000000000)) .add (.number (.ofBits 0x4000000000000000))) := by
    decide +kernel
  obtain ⟨hagree, hwithout⟩ := agree_of_respaced {}
  exact ⟨hrespaced, hagree hrespaced, _, hparse, hwithout hparse⟩

end Parse

end Calculator
