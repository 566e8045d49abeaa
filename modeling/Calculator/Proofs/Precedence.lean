/-
Module: Calculator.Proofs.Precedence
Layer: Proofs
Purpose: Splitting at the loosest operator against a declarative reading of precedence. A `Layout`
  is a tree over operand tokens, and it is `Ordered` when no operator below a node binds looser than
  the node does, and none to its right as loosely. At the root of an ordered layout stands exactly the
  operator at which its tokens are split, so a list of tokens has at most one ordered layout, and
  what the rules build from the list is that layout with each operand built on its own.
Imports: Calculator.Proofs.Derivation
Trusted boundary: none (fully proved)
Main exports: Split.loosest?_eq_some_iff, Parse.Operand, Parse.Layout, Parse.Layout.Ordered,
  Parse.Layout.Ordered.unique, Parse.Alternates, Parse.builds_iff_layout
-/
import Calculator.Proofs.Derivation

namespace Calculator

/-! ### The split point -/

namespace Split

/-- No operator to the left of the split binds looser, and none to its right as loosely. -/
def Loosest (split : Split) : Prop :=
  (∀ op, Token.operator op ∈ split.left → op.rank ≤ split.op.rank) ∧
    ∀ op, Token.operator op ∈ split.right → op.rank < split.op.rank

/-- Tokens with an operator can be split. -/
theorem loosest?_isSome_of_mem {tokens : List Token} {op : Operator}
    (h : Token.operator op ∈ tokens) : ∃ split, loosest? tokens = some split := by
  fun_induction loosest? tokens with
  | case1 => cases h
  | case2 => exact ⟨_, rfl⟩
  | case3 => exact ⟨_, rfl⟩
  | case4 => exact ⟨_, rfl⟩
  | case5 token rest hne ih =>
      rcases List.mem_cons.1 h with rfl | h
      · exact absurd rfl (hne op)
      · obtain ⟨split, hsplit⟩ := ih h
        exact ⟨split.push token, by rw [hsplit]; rfl⟩

/-- What is found is the loosest split, and the last one of its rank. -/
theorem loosest_of_loosest? {tokens : List Token} {split : Split} (h : loosest? tokens = some split) :
    split.Loosest := by
  fun_induction loosest? tokens generalizing split with
  | case1 => cases h
  | case2 op rest hnone ih =>
      cases h
      refine ⟨fun o ho => absurd ho List.not_mem_nil, fun o ho => ?_⟩
      obtain ⟨best, hbest⟩ := loosest?_isSome_of_mem ho
      rw [hnone] at hbest
      cases hbest
  | case3 op rest best hbest hlt ih =>
      cases h
      refine ⟨fun o ho => absurd ho List.not_mem_nil, fun o ho => ?_⟩
      -- An operator behind the new one is at most as loose as the best of them.
      rw [← tokens_of_loosest? hbest] at ho
      obtain ⟨hleft, hright⟩ := ih hbest
      rcases List.mem_append.1 ho with ho | ho
      · exact Nat.lt_of_le_of_lt (hleft o ho) hlt
      · rcases List.mem_cons.1 ho with ho | ho
        · cases ho
          exact hlt
        · exact Nat.lt_trans (hright o ho) hlt
  | case4 op rest best hbest hnlt ih =>
      cases h
      obtain ⟨hleft, hright⟩ := ih hbest
      refine ⟨fun o ho => ?_, hright⟩
      rcases List.mem_cons.1 ho with ho | ho
      · cases ho
        exact Nat.le_of_not_lt hnlt
      · exact hleft o ho
  | case5 token rest hne ih =>
      obtain ⟨best, hbest, rfl⟩ := Option.map_eq_some_iff.1 h
      obtain ⟨hleft, hright⟩ := ih hbest
      refine ⟨fun o ho => ?_, hright⟩
      rcases List.mem_cons.1 ho with ho | ho
      · exact absurd ho.symm (hne o)
      · exact hleft o ho

/-- The loosest split is found. -/
theorem loosest?_tokens {split : Split} (h : split.Loosest) : loosest? split.tokens = some split := by
  obtain ⟨left, op, right⟩ := split
  obtain ⟨hleft, hright⟩ := h
  induction left with
  | nil =>
      simp only [tokens, List.nil_append, loosest?]
      split
      · rfl
      · rename_i best hbest
        have hmem : Token.operator best.op ∈ right := by
          rw [← tokens_of_loosest? hbest]
          exact List.mem_append_right _ List.mem_cons_self
        rw [if_pos (hright _ hmem)]
  | cons token left ih =>
      have hrest := ih (fun o ho => hleft o (List.mem_cons_of_mem token ho)) hright
      simp only [tokens, List.cons_append] at hrest ⊢
      cases token with
      | operator o =>
          have hle : ¬ op.rank < o.rank := Nat.not_lt.2 (hleft o List.mem_cons_self)
          simp only [loosest?, hrest, hle, if_false]
          rfl
      | number literal =>
          simp only [loosest?, hrest]
          rfl
      | group text =>
          simp only [loosest?, hrest]
          rfl

/-- The split found is the one split of the tokens at a rightmost loosest operator. -/
theorem loosest?_eq_some_iff {tokens : List Token} {split : Split} :
    loosest? tokens = some split ↔ split.tokens = tokens ∧ split.Loosest := by
  constructor
  · intro h
    exact ⟨tokens_of_loosest? h, loosest_of_loosest? h⟩
  · rintro ⟨rfl, h⟩
    exact loosest?_tokens h

end Split

namespace Parse

/-! ### Operands and layouts -/

/-- A token that stands for a value. -/
inductive Operand where
  | number (literal : Text)
  | group (text : Text)
  deriving DecidableEq, Repr

/-- The token of an operand. -/
def Operand.token : Operand → Token
  | number literal => .number literal
  | group text => .group text

/-- An operand is known by its token. -/
theorem Operand.token_inj {x y : Operand} (h : x.token = y.token) : x = y := by
  cases x <;> cases y <;> cases h <;> rfl

/-- No operand is an operator. -/
theorem Operand.token_ne_operator (x : Operand) (op : Operator) : x.token ≠ .operator op := by
  cases x <;> exact Token.noConfusion

/-- A tree with operators at its nodes and operand tokens at its leaves. -/
inductive Layout where
  | operand (x : Operand)
  | node (left : Layout) (op : Operator) (right : Layout)
  deriving DecidableEq, Repr

namespace Layout

/-- The tokens of a layout in order. -/
def tokens : Layout → List Token
  | operand x => [x.token]
  | node left op right => left.tokens ++ .operator op :: right.tokens

/-- The operators of a layout in order. -/
def operators : Layout → List Operator
  | operand _ => []
  | node left op right => left.operators ++ op :: right.operators

/-- Below every node, the operators to the left bind at least as tightly as the node's, and those to
    the right bind tighter. -/
def Ordered : Layout → Prop
  | operand _ => True
  | node left op right =>
      (∀ o ∈ left.operators, o.rank ≤ op.rank) ∧ (∀ o ∈ right.operators, o.rank < op.rank) ∧
        left.Ordered ∧ right.Ordered

/-- The expression is the layout with an expression of its own in the place of each operand. -/
def Grafts (sub : Operand → Expr → Prop) : Layout → Expr → Prop
  | operand x, expr => sub x expr
  | node left op right, .binary l op' r => op = op' ∧ left.Grafts sub l ∧ right.Grafts sub r
  | node _ _ _, .number _ => False

theorem operator_mem_tokens {layout : Layout} {op : Operator} :
    Token.operator op ∈ layout.tokens ↔ op ∈ layout.operators := by
  induction layout with
  | operand x => cases x <;> simp [tokens, operators, Operand.token]
  | node left o right ihleft ihright => simp [tokens, operators, ihleft, ihright]

/-- A single operand is not split. -/
theorem loosest?_operand (x : Operand) : Split.loosest? [x.token] = none := by
  cases x <;> rfl

/-- An ordered layout has at its root the operator at which its tokens are split. -/
theorem Ordered.loosest? {left right : Layout} {op : Operator} (h : (node left op right).Ordered) :
    Split.loosest? (node left op right).tokens = some ⟨left.tokens, op, right.tokens⟩ := by
  obtain ⟨hleft, hright, -, -⟩ := h
  refine Split.loosest?_eq_some_iff.2 ⟨rfl, ?_, ?_⟩
  · intro o ho
    exact hleft o (operator_mem_tokens.1 ho)
  · intro o ho
    exact hright o (operator_mem_tokens.1 ho)

/-- A list of tokens has at most one ordered layout. -/
theorem Ordered.unique {a b : Layout} (ha : a.Ordered) (hb : b.Ordered) (h : a.tokens = b.tokens) :
    a = b := by
  induction a generalizing b with
  | operand x =>
      cases b with
      | operand y =>
          injection h with h
          rw [Operand.token_inj h]
      | node left op right =>
          have hsplit := hb.loosest?
          rw [← h, tokens, loosest?_operand] at hsplit
          cases hsplit
  | node left op right ihleft ihright =>
      have hsplit := ha.loosest?
      cases b with
      | operand y =>
          rw [h, tokens, loosest?_operand] at hsplit
          cases hsplit
      | node left' op' right' =>
          rw [h, hb.loosest?] at hsplit
          injection hsplit with hsplit
          injection hsplit with hl ho hr
          rw [ihleft ha.2.2.1 hb.2.2.1 hl.symm, ihright ha.2.2.2 hb.2.2.2 hr.symm, ho]

/-- What the operands stand for may be replaced by something weaker. -/
theorem Grafts.mono {sub sub' : Operand → Expr → Prop} {layout : Layout} {expr : Expr}
    (hsub : ∀ x, x.token ∈ layout.tokens → ∀ e, sub x e → sub' x e) (h : layout.Grafts sub expr) :
    layout.Grafts sub' expr := by
  induction layout generalizing expr with
  | operand x => exact hsub x List.mem_cons_self expr h
  | node left op right ihleft ihright =>
      cases expr with
      | number x => exact h
      | binary l op' r =>
          obtain ⟨hop, hleft, hright⟩ := h
          refine ⟨hop, ihleft ?_ hleft, ihright ?_ hright⟩
          · intro x hx
            exact hsub x (List.mem_append_left _ hx)
          · intro x hx
            exact hsub x (List.mem_append_right _ (List.mem_cons_of_mem _ hx))

/-- Every operand of a grafted layout has its own expression. -/
theorem Grafts.exists_sub {sub : Operand → Expr → Prop} {layout : Layout} {expr : Expr}
    (h : layout.Grafts sub expr) : ∀ x : Operand, x.token ∈ layout.tokens → ∃ e, sub x e := by
  induction layout generalizing expr with
  | operand y =>
      intro x hx
      rw [tokens, List.mem_singleton] at hx
      obtain rfl := Operand.token_inj hx
      exact ⟨expr, h⟩
  | node left op right ihleft ihright =>
      intro x hx
      cases expr with
      | number y => cases h
      | binary l op' r =>
          obtain ⟨-, hleft, hright⟩ := h
          rcases List.mem_append.1 hx with hx | hx
          · exact ihleft hleft x hx
          · rcases List.mem_cons.1 hx with hx | hx
            · exact absurd hx (x.token_ne_operator op)
            · exact ihright hright x hx

/-- If every operand stands for an expression, so does the layout. -/
theorem exists_grafts {sub : Operand → Expr → Prop} {layout : Layout}
    (h : ∀ x : Operand, x.token ∈ layout.tokens → ∃ e, sub x e) : ∃ expr, layout.Grafts sub expr := by
  induction layout with
  | operand x => exact h x List.mem_cons_self
  | node left op right ihleft ihright =>
      obtain ⟨l, hl⟩ := ihleft fun x hx => h x (List.mem_append_left _ hx)
      obtain ⟨r, hr⟩ := ihright fun x hx =>
        h x (List.mem_append_right _ (List.mem_cons_of_mem _ hx))
      exact ⟨.binary l op r, rfl, hl, hr⟩

end Layout

/-! ### Layouts and the rules of building -/

/-- The operand builds the expression on its own. -/
def BuildsAlone (x : Operand) (expr : Expr) : Prop := ∃ height, Builds height [x.token] expr

/-- What is built from tokens comes from an ordered layout of them. -/
theorem exists_layout {height : Nat} {tokens : List Token} {expr : Expr}
    (h : Builds height tokens expr) :
    ∃ layout : Layout, layout.tokens = tokens ∧ layout.Ordered ∧ layout.Grafts BuildsAlone expr := by
  induction h with
  | @number literal x hx => exact ⟨.operand (.number literal), rfl, trivial, 0, .number hx⟩
  | @group height text tokens expr hscan hinner _ =>
      exact ⟨.operand (.group text), rfl, trivial, height + 1, .group hscan hinner⟩
  | @split i j tokens split left right hsplit _ _ ihleft ihright =>
      obtain ⟨a, hatokens, haordered, hagrafts⟩ := ihleft
      obtain ⟨b, hbtokens, hbordered, hbgrafts⟩ := ihright
      obtain ⟨htokens, hbefore, hbehind⟩ := Split.loosest?_eq_some_iff.1 hsplit
      rw [← hatokens] at hbefore
      rw [← hbtokens] at hbehind
      refine ⟨.node a split.op b, ?_, ⟨?_, ?_, haordered, hbordered⟩, rfl, hagrafts, hbgrafts⟩
      · rw [Layout.tokens, hatokens, hbtokens]
        exact htokens
      · intro o ho
        exact hbefore o (Layout.operator_mem_tokens.2 ho)
      · intro o ho
        exact hbehind o (Layout.operator_mem_tokens.2 ho)

/-- What an ordered layout of the tokens stands for is built from them. -/
theorem builds_layout {layout : Layout} {expr : Expr} (hordered : layout.Ordered)
    (hgrafts : layout.Grafts BuildsAlone expr) : ∃ height, Builds height layout.tokens expr := by
  induction layout generalizing expr with
  | operand x => exact hgrafts
  | node left op right ihleft ihright =>
      cases expr with
      | number x => cases hgrafts
      | binary l op' r =>
          obtain ⟨rfl, hl, hr⟩ := hgrafts
          obtain ⟨i, hi⟩ := ihleft hordered.2.2.1 hl
          obtain ⟨j, hj⟩ := ihright hordered.2.2.2 hr
          exact ⟨max i j, .split hordered.loosest? hi hj⟩

/-- The rules build from a list of tokens its ordered layout, each operand built on its own. -/
theorem builds_iff_layout {tokens : List Token} {expr : Expr} :
    (∃ height, Builds height tokens expr) ↔
      ∃ layout : Layout, layout.tokens = tokens ∧ layout.Ordered ∧
        layout.Grafts BuildsAlone expr := by
  constructor
  · rintro ⟨height, h⟩
    exact exists_layout h
  · rintro ⟨layout, rfl, hordered, hgrafts⟩
    exact builds_layout hordered hgrafts

/-! ### Alternation -/

/-- Operands and operators take turns, with an operand at both ends. -/
inductive Alternates : List Token → Prop where
  | operand (x : Operand) : Alternates [x.token]
  | cons (x : Operand) (op : Operator) {tokens : List Token} :
      Alternates tokens → Alternates (x.token :: .operator op :: tokens)

namespace Alternates

/-- An operator between two rows of operands and operators makes one. -/
theorem join {before behind : List Token} (h : Alternates before) (op : Operator)
    (h' : Alternates behind) : Alternates (before ++ .operator op :: behind) := by
  induction h with
  | operand x => exact .cons x op h'
  | cons x op' _ ih => exact .cons x op' ih

/-- On either side of an operator the tokens alternate. -/
theorem cut {before behind : List Token} {op : Operator}
    (h : Alternates (before ++ .operator op :: behind)) : Alternates before ∧ Alternates behind := by
  generalize htokens : before ++ .operator op :: behind = tokens at h
  induction h generalizing before with
  | operand x =>
      cases before with
      | nil =>
          injection htokens with htoken _
          exact absurd htoken.symm (x.token_ne_operator op)
      | cons token before => cases before <;> cases htokens
  | cons x op' h' ih =>
      cases before with
      | nil =>
          injection htokens with htoken _
          exact absurd htoken.symm (x.token_ne_operator op)
      | cons token before =>
          cases before with
          | nil =>
              cases htokens
              exact ⟨.operand x, h'⟩
          | cons token' before =>
              cases htokens
              obtain ⟨hbefore, hbehind⟩ := ih rfl
              exact ⟨.cons x op' hbefore, hbehind⟩

/-- No operator comes first. -/
theorem ne_operator_cons {tokens : List Token} (h : Alternates tokens) (op : Operator)
    (rest : List Token) : tokens ≠ .operator op :: rest := by
  rintro rfl
  cases (@cut [] rest op h).1

end Alternates

/-- In a layout, operands and operators alternate. -/
theorem Layout.alternates (layout : Layout) : Alternates layout.tokens := by
  induction layout with
  | operand x => exact .operand x
  | node left op right ihleft ihright => exact ihleft.join op ihright

/-- Only tokens that alternate build an expression. -/
theorem Builds.alternates {height : Nat} {tokens : List Token} {expr : Expr}
    (h : Builds height tokens expr) : Alternates tokens := by
  obtain ⟨layout, rfl, -⟩ := exists_layout h
  exact layout.alternates

/-- Every operand of a list that builds an expression builds one on its own. -/
theorem Builds.operands {height : Nat} {tokens : List Token} {expr : Expr}
    (h : Builds height tokens expr) :
    ∀ x : Operand, x.token ∈ tokens → ∃ e, BuildsAlone x e := by
  obtain ⟨layout, rfl, -, hgrafts⟩ := exists_layout h
  exact hgrafts.exists_sub

end Parse

end Calculator
