/-
Module: Calculator.Proofs.Inorder
Layer: Proofs
Purpose: Nothing of a text is lost, repeated or moved. Brackets and blanks apart, a text is a row of
  words and operators, where a word goes on up to the next operator, bracket or blank. The reader cuts
  the text at brackets, between tokens and around operators, yet the numbers and operators of the
  expression from left to right are those of the text, and the words are their literals: the row of a
  text splits at any character that ends a word, and each of the cuts is made at one.
Imports: Calculator.Proofs.CanonicalForm, Mathlib.Data.List.Forall2
Trusted boundary: none (fully proved)
Main exports: Item, Item.ofText, Item.Writes, Expr.inorder, Item.ofText_append,
  Parse.Builds.writes_inorder, Expr.inorder_of_parse
-/
import Calculator.Proofs.CanonicalForm
import Mathlib.Data.List.Forall2

namespace Calculator

/-- An operand of some kind, or an operator. -/
inductive Item (α : Type) where
  | operand (x : α)
  | operator (op : Operator)
  deriving DecidableEq, Repr

namespace Item

/-- A bracket or a blank. -/
def isGap (c : Char) : Bool := c = '(' || c = ')' || Text.isBlank c

/-- Any character but an operator, a bracket or a blank. -/
def isWord (c : Char) : Bool := (Operator.ofSymbol? c).isNone && !isGap c

/-- The words and operators of a text from left to right, with brackets and blanks skipped. -/
def ofText : Text → List (Item Text)
  | [] => []
  | c :: rest =>
      match Operator.ofSymbol? c with
      | some op => operator op :: ofText rest
      | none =>
          if isGap c then ofText rest
          else operand (c :: rest.takeWhile isWord) :: ofText (rest.dropWhile isWord)
termination_by text => text.length
decreasing_by
  · exact Nat.lt_succ_self _
  · exact Nat.lt_succ_self _
  · exact Nat.lt_succ_of_le (List.dropWhile_sublist _).length_le

/-- An item of a text writes one of an expression: a plain literal of the number, or the operator. -/
inductive Writes : Item Text → Item Binary64 → Prop where
  | operand {literal : Text} {x : Binary64} :
      Numeral.IsLiteral literal → Numeral.read? literal = some x → Writes (operand literal) (operand x)
  | operator (op : Operator) : Writes (operator op) (operator op)

/-- Whether the item is an operator. -/
def isOperator {α : Type} : Item α → Bool
  | operand _ => false
  | operator _ => true

end Item

namespace Expr

/-- The numbers and operators of an expression from left to right. -/
def inorder : Expr → List (Item Binary64)
  | number x => [.operand x]
  | binary left op right => left.inorder ++ .operator op :: right.inorder

/-- How many numbers stand at the leaves. -/
def leaves : Expr → Nat
  | number _ => 1
  | binary left _ right => left.leaves + right.leaves

/-- How many nodes hold an operator. -/
def nodes : Expr → Nat
  | number _ => 0
  | binary left _ right => left.nodes + 1 + right.nodes

end Expr

namespace Item

/-! ### The items of a text -/

/-- A gap between items is no operator. -/
theorem ofSymbol?_of_isGap {c : Char} (h : isGap c = true) : Operator.ofSymbol? c = none := by
  cases hsymbol : Operator.ofSymbol? c with
  | none => rfl
  | some op =>
      rw [Operator.ofSymbol?_eq_some_iff.1 hsymbol] at h
      cases op <;> exact absurd h (by decide)

/-- A gap between items is no part of a word. -/
theorem isWord_of_isGap {c : Char} (h : isGap c = true) : isWord c = false := by
  simp [isWord, h]

theorem isWord_symbol (op : Operator) : isWord op.symbol = false := by
  simp [isWord]

/-- No operator is a part of a word. -/
theorem ofSymbol?_of_isWord {c : Char} (h : isWord c = true) : Operator.ofSymbol? c = none := by
  simp only [isWord, Bool.and_eq_true, Option.isNone_iff_eq_none] at h
  exact h.1

/-- A literal is a word. -/
theorem isWord_of_mem_literal {literal : Text} (h : Numeral.IsLiteral literal) {c : Char}
    (hc : c ∈ literal) : isWord c = true := by
  rcases h.forall_mem c hc with hdigit | rfl
  · have hopen : c ≠ '(' := by
      rintro rfl
      exact absurd hdigit (by decide)
    have hclose : c ≠ ')' := by
      rintro rfl
      exact absurd hdigit (by decide)
    simp [isWord, isGap, Token.ofSymbol?_of_isDigit hdigit, Token.isBlank_of_isDigit hdigit, hopen,
      hclose]
  · decide

theorem ofText_symbol (op : Operator) (rest : Text) :
    ofText (op.symbol :: rest) = operator op :: ofText rest := by
  rw [ofText, Operator.ofSymbol?_symbol]

theorem ofText_gap {c : Char} (rest : Text) (h : isGap c = true) :
    ofText (c :: rest) = ofText rest := by
  rw [ofText, ofSymbol?_of_isGap h]
  simp only [h, if_true]

/-- A character of a word starts an operand, which goes on to the end of the word. -/
theorem ofText_word {c : Char} (rest : Text) (h : isWord c = true) :
    ofText (c :: rest) =
      operand (c :: rest.takeWhile isWord) :: ofText (rest.dropWhile isWord) := by
  have hgap : ¬ isGap c = true := by
    intro hgap
    rw [isWord_of_isGap hgap] at h
    cases h
  rw [ofText, ofSymbol?_of_isWord h]
  simp only [if_neg hgap]

/-- The items of a text are those of its parts if no word goes on from one into the other. -/
theorem ofText_append (left : Text) {right : Text} (h : ∀ c ∈ right.head?, isWord c = false) :
    ofText (left ++ right) = ofText left ++ ofText right := by
  fun_induction ofText left with
  | case1 => rfl
  | case2 c rest op hop ih =>
      rw [List.cons_append, ofText, hop]
      exact congrArg _ ih
  | case3 c rest hop hgap ih =>
      rw [List.cons_append, ofText_gap _ hgap]
      exact ih
  | case4 c rest hop hgap ih =>
      have hword : isWord c = true := by simp [isWord, hop, hgap]
      obtain ⟨htake, hdrop⟩ := Text.takeWhile_append_of_head isWord h rest
      rw [List.cons_append, ofText_word _ hword, htake, hdrop, ih, List.cons_append]

theorem ofText_blanks_append {gap : Text} (h : Text.Blanks gap) (rest : Text) :
    ofText (gap ++ rest) = ofText rest := by
  induction gap with
  | nil => rfl
  | cons c gap ih =>
      have hgap : isGap c = true := by simp [isGap, h c List.mem_cons_self]
      rw [List.cons_append, ofText_gap _ hgap]
      exact ih fun d hd => h d (List.mem_cons_of_mem c hd)

/-- Blanks behind a text are no items. -/
theorem ofText_append_blanks (text : Text) {gap : Text} (h : Text.Blanks gap) :
    ofText (text ++ gap) = ofText text := by
  have hhead : ∀ c ∈ gap.head?, isWord c = false := by
    intro c hc
    have hblank := h c (List.mem_of_mem_head? hc)
    exact isWord_of_isGap (by simp [isGap, hblank])
  have hnone : ofText gap = [] := by
    have := ofText_blanks_append h []
    rwa [List.append_nil, ofText] at this
  rw [ofText_append text hhead, hnone, List.append_nil]

theorem ofText_literal {literal : Text} (h : Numeral.IsLiteral literal) :
    ofText literal = [operand literal] := by
  obtain ⟨c, rest, rfl, -⟩ := h.head
  have hrest : ∀ d ∈ rest, isWord d = true :=
    fun d hd => isWord_of_mem_literal h (List.mem_cons_of_mem c hd)
  rw [ofText_word rest (isWord_of_mem_literal h List.mem_cons_self),
    List.takeWhile_eq_self_iff.2 hrest, List.dropWhile_eq_nil_iff.2 hrest, ofText]

/-- Brackets are no items. -/
theorem ofText_enclose (w : Text) : ofText (Bracket.enclose w) = ofText w := by
  have hhead : ∀ c ∈ [')'].head?, isWord c = false := by
    intro c hc
    cases hc
    decide
  rw [Bracket.enclose, ofText_gap _ (by decide), ofText_append w hhead, ofText_gap _ (by decide),
    ofText, List.append_nil]

end Item

/-! ### The items of what is built -/

/-- A text that is scanned as one token has the items of the token. -/
theorem Token.Spells.ofText_single {text : Text} {token : Token} (h : Spells text [token]) :
    Item.ofText text = Item.ofText token.text := by
  cases h with
  | cons hgap _ _ hrest =>
      cases hrest with
      | nil hbehind =>
          rw [Item.ofText_blanks_append hgap, Item.ofText_append_blanks _ hbehind]

/-- The words and operators of a text write the expression that is built from its tokens. -/
theorem Parse.Builds.writes_inorder {height : Nat} {tokens : List Token} {expr : Expr} {text : Text}
    (h : Builds height tokens expr) (hspells : Token.Spells text tokens) :
    List.Forall₂ Item.Writes (Item.ofText text) expr.inorder := by
  induction h generalizing text with
  | number hx =>
      have hliteral := hspells.wellFormed _ List.mem_cons_self
      rw [hspells.ofText_single, Token.text, Item.ofText_literal hliteral]
      exact .cons (.operand hliteral hx) .nil
  | group hscan _ ih =>
      obtain ⟨w, -, rfl⟩ := hspells.wellFormed _ List.mem_cons_self
      rw [Bracket.stripOuter_enclose] at hscan
      rw [hspells.ofText_single, Token.text, Item.ofText_enclose]
      exact ih (Token.scan_eq_ok_iff_spells.1 hscan)
  | @split i j tokens split left right hsplit _ _ ihleft ihright =>
      rw [← Split.tokens_of_loosest? hsplit] at hspells
      obtain ⟨before, behind, rfl, hbefore, hbehind⟩ := Token.Spells.cut hspells
      have hhead : ∀ c ∈ (split.op.symbol :: behind).head?, Item.isWord c = false := by
        intro c hc
        cases hc
        exact Item.isWord_symbol split.op
      rw [Item.ofText_append before hhead, Item.ofText_symbol]
      exact List.rel_append (ihleft hbefore) (.cons (.operator split.op) (ihright hbehind))

/-! ### Counting -/

namespace Item

/-- Operators write operators, and operands write operands. -/
theorem map_isOperator_eq {items : List (Item Text)} {items' : List (Item Binary64)}
    (h : List.Forall₂ Writes items items') : items.map isOperator = items'.map isOperator := by
  induction h with
  | nil => rfl
  | cons hwrites _ ih =>
      rw [List.map_cons, List.map_cons, ih]
      cases hwrites with
      | operand => rfl
      | operator => rfl

/-- The operators among the items are the operator symbols in the text. -/
theorem countP_isOperator_ofText (text : Text) :
    (ofText text).countP isOperator = text.countP fun c => (Operator.ofSymbol? c).isSome := by
  fun_induction ofText text with
  | case1 => rfl
  | case2 c rest op hop ih =>
      rw [List.countP_cons_of_pos rfl, List.countP_cons_of_pos (by simp [hop]), ih]
  | case3 c rest hop _ ih => rw [List.countP_cons_of_neg (by simp [hop]), ih]
  | case4 c rest hop _ ih =>
      have hword : (rest.takeWhile isWord).countP (fun d => (Operator.ofSymbol? d).isSome) = 0 := by
        apply List.countP_eq_zero.2
        intro d hd
        simp [ofSymbol?_of_isWord (List.mem_takeWhile_imp hd)]
      have hrest : rest.takeWhile isWord ++ rest.dropWhile isWord = rest :=
        List.takeWhile_append_dropWhile
      rw [List.countP_cons_of_neg (by simp [isOperator]), List.countP_cons_of_neg (by simp [hop]), ih,
        ← hrest, List.countP_append, hword, hrest, Nat.zero_add]

end Item

namespace Expr

/-- The operations of an expression are its inorder operators. -/
theorem nodes_eq (t : Expr) : t.nodes = t.inorder.countP Item.isOperator := by
  induction t with
  | number x => rfl
  | binary left op right ihleft ihright =>
      rw [nodes, inorder, List.countP_append, List.countP_cons_of_pos rfl, ihleft, ihright,
        Nat.add_right_comm, Nat.add_assoc]

/-- The numbers of an expression are its inorder operands. -/
theorem leaves_eq (t : Expr) : t.leaves = t.inorder.countP (!·.isOperator) := by
  induction t with
  | number x => rfl
  | binary left op right ihleft ihright =>
      rw [leaves, inorder, List.countP_append, List.countP_cons_of_neg (by simp [Item.isOperator]),
        ihleft, ihright]

/-- Brackets and blanks apart, a text that is read as an expression is written of the literals of its
    numbers and of its operators, from left to right: one leaf for each literal, finite and without a
    sign, and one node for each operator symbol. -/
theorem inorder_of_parse {limits : Limits} {text : Text} {t : Expr}
    (h : Parse.parse limits text = .ok t) :
    List.Forall₂ Item.Writes (Item.ofText text) t.inorder ∧
      t.leaves = (Item.ofText text).countP (!·.isOperator) ∧
      t.nodes = text.countP (fun c => (Operator.ofSymbol? c).isSome) ∧ t.Plain := by
  obtain ⟨tokens, height, hspells, hbuilds, -⟩ := Parse.parse_eq_ok_iff.1 h
  have hwrites := hbuilds.writes_inorder hspells
  have hkinds := Item.map_isOperator_eq hwrites
  refine ⟨hwrites, ?_, ?_, plain_of_parse h⟩
  · have hcount := congrArg (List.countP (!·)) hkinds
    rw [List.countP_map, List.countP_map] at hcount
    rw [leaves_eq]
    exact hcount.symm
  · have hcount := congrArg (List.countP id) hkinds
    rw [List.countP_map, List.countP_map] at hcount
    rw [nodes_eq, ← Item.countP_isOperator_ofText]
    exact hcount.symm

/-- The brackets and blanks of `(1.5 + 2)*3` leave three literals and two operators. -/
theorem inorder_product_of_sum :
    ∃ t, Parse.parse {} "(1.5 + 2)*3".toList = .ok t ∧
      Item.ofText "(1.5 + 2)*3".toList = [.operand "1.5".toList, .operator .add, .operand "2".toList,
        .operator .mul, .operand "3".toList] ∧
      List.Forall₂ Item.Writes (Item.ofText "(1.5 + 2)*3".toList) t.inorder ∧
      t.leaves = 3 ∧ t.nodes = 2 ∧ t.Plain := by
  have hparse : Parse.parse {} "(1.5 + 2)*3".toList =
      .ok (.binary (.binary (.number (.ofBits 0x3ff8000000000000)) .add
        (.number (.ofBits 0x4000000000000000))) .mul (.number (.ofBits 0x4008000000000000))) := by
    decide +kernel
  obtain ⟨hwrites, hleaves, hnodes, hplain⟩ := inorder_of_parse hparse
  exact ⟨_, hparse, by decide +kernel, hwrites, hleaves.trans (by decide +kernel),
    hnodes.trans (by decide), hplain⟩

end Expr

end Calculator
