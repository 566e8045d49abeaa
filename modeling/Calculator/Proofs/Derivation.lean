/-
Module: Calculator.Proofs.Derivation
Layer: Proofs
Purpose: What the builder builds, without its limits. `Builds` has one rule for each way to succeed
  and counts how many groups are open around the innermost token. The builder, started inside some
  groups and below some operators, returns an expression exactly when the rules derive it, the groups
  fit under the nesting limit and the depth of the expression fits under the limit on operators. So
  a limit never shapes a result: it only decides whether there is one.
Imports: Calculator.Parse.Build, Calculator.Proofs.Spelling
Trusted boundary: none (fully proved)
Main exports: Parse.Builds, Parse.buildAt_eq_ok_iff, Parse.parse_eq_ok_iff, Parse.Builds.unique,
  Parse.build_eq_ok_iff_of_le, Parse.parse_eq_ok_iff_of_le
-/
import Calculator.Parse.Build
import Calculator.Proofs.Spelling

namespace Calculator

theorem Expr.one_le_depth (expr : Expr) : 1 ≤ expr.depth := by
  cases expr with
  | number x => exact Nat.le_refl 1
  | binary left op right => exact Nat.succ_le_succ (Nat.zero_le _)

namespace Parse

/-- The tokens build the expression, and `height` groups are open around the innermost of them. -/
inductive Builds : Nat → List Token → Expr → Prop where
  | number {literal : Text} {x : Binary64} :
      Numeral.read? literal = some x → Builds 0 [.number literal] (.number x)
  | group {height : Nat} {text : Text} {tokens : List Token} {expr : Expr} :
      Token.scan (Bracket.stripOuter text) = .ok tokens → Builds height tokens expr →
        Builds (height + 1) [.group text] expr
  | split {i j : Nat} {tokens : List Token} {split : Split} {left right : Expr} :
      Split.loosest? tokens = some split → Builds i split.left left → Builds j split.right right →
        Builds (max i j) tokens (.binary left split.op right)

namespace Builds

/-- Nothing is built from no tokens. -/
theorem ne_nil {height : Nat} {tokens : List Token} {expr : Expr} (h : Builds height tokens expr) :
    tokens ≠ [] := by
  rintro rfl
  cases h with
  | split hsplit _ _ => cases hsplit

/-- The rules derive one expression, with one height. -/
theorem unique {height height' : Nat} {tokens : List Token} {expr expr' : Expr}
    (h : Builds height tokens expr) (h' : Builds height' tokens expr') :
    height = height' ∧ expr = expr' := by
  induction h generalizing height' expr' with
  | number hx =>
      cases h' with
      | number hy =>
          rw [hx] at hy
          cases hy
          exact ⟨rfl, rfl⟩
      | split hsplit _ _ => cases hsplit
  | group hscan _ ih =>
      cases h' with
      | group hscan' hinner =>
          rw [hscan] at hscan'
          cases hscan'
          obtain ⟨rfl, rfl⟩ := ih hinner
          exact ⟨rfl, rfl⟩
      | split hsplit _ _ => cases hsplit
  | split hsplit _ _ ihleft ihright =>
      cases h' with
      | number => cases hsplit
      | group => cases hsplit
      | split hsplit' hleft hright =>
          rw [hsplit] at hsplit'
          cases hsplit'
          obtain ⟨rfl, rfl⟩ := ihleft hleft
          obtain ⟨rfl, rfl⟩ := ihright hright
          exact ⟨rfl, rfl⟩

end Builds

/-! ### The builder follows the rules -/

/-- What the builder gives has a derivation that keeps to both limits. -/
theorem builds_of_buildAt {limits : Limits} {nesting splits : Nat} {tokens : List Token} {expr : Expr}
    (h : buildAt limits nesting splits tokens = .ok expr) :
    ∃ height, Builds height tokens expr ∧ nesting + height ≤ limits.nesting ∧
      splits + expr.depth ≤ limits.chain + 1 := by
  fun_induction buildAt limits nesting splits tokens generalizing expr with
  | case1 => cases h
  | case2 => cases h
  | case3 => cases h
  | case4 => cases h
  | case5 nesting splits hnesting hsplits text tokens hscan ih =>
      obtain ⟨height, hbuilds, hheight, hdepth⟩ := ih h
      exact ⟨height + 1, .group hscan hbuilds, by omega, hdepth⟩
  | case6 nesting splits hnesting hsplits literal x hx =>
      cases h
      exact ⟨0, .number hx, by omega, by simp only [Expr.depth]; omega⟩
  | case7 => cases h
  | case8 => cases h
  | case9 => cases h
  | case10 => cases h
  | case11 => cases h
  | case12 nesting splits hnesting hsplits tokens _ _ _ _ split hsplit left hleft right hright ihleft
      ihright =>
      cases h
      obtain ⟨i, hbuildsl, hi, hdepthl⟩ := ihleft hleft
      obtain ⟨j, hbuildsr, hj, hdepthr⟩ := ihright hright
      exact ⟨max i j, .split hsplit hbuildsl hbuildsr, by omega, by simp only [Expr.depth]; omega⟩

/-- Beyond the limit on nesting, the limit itself is reported. -/
theorem buildAt_nestedTooDeeply {limits : Limits} {nesting : Nat} (splits : Nat)
    (tokens : List Token) (h : limits.nesting < nesting) :
    buildAt limits nesting splits tokens = .error (.nestedTooDeeply limits.nesting) := by
  rw [buildAt.eq_def, if_pos h]

/-- A group alone is built as what it holds, one level further in. -/
theorem buildAt_group {limits : Limits} {nesting splits : Nat} {text : Text} {tokens : List Token}
    (hnesting : nesting ≤ limits.nesting) (hsplits : splits ≤ limits.chain)
    (hscan : Token.scan (Bracket.stripOuter text) = .ok tokens) :
    buildAt limits nesting splits [.group text] = buildAt limits (nesting + 1) splits tokens := by
  rw [buildAt, if_neg (Nat.not_lt.2 hnesting), if_neg (Nat.not_lt.2 hsplits)]
  split
  · rename_i hfail
    rw [hscan] at hfail
    cases hfail
  · rename_i inner hok
    rw [hscan] at hok
    cases hok
    rfl

/-- Tokens with an operator are built from both sides of their split, the left side first. -/
theorem buildAt_split {limits : Limits} {nesting splits : Nat} {tokens : List Token} {split : Split}
    (hnesting : nesting ≤ limits.nesting) (hsplits : splits ≤ limits.chain)
    (hsplit : Split.loosest? tokens = some split) (hleft : split.left ≠ []) :
    buildAt limits nesting splits tokens =
      (buildAt limits nesting (splits + 1) split.left).bind fun left =>
        (buildAt limits nesting (splits + 1) split.right).map fun right =>
          .binary left split.op right := by
  rw [buildAt.eq_def, if_neg (Nat.not_lt.2 hnesting), if_neg (Nat.not_lt.2 hsplits)]
  split
  · cases hsplit
  · cases hsplit
  · cases hsplit
  · -- An operator alone leaves no operand to its left.
    cases hsplit
    exact absurd rfl hleft
  · split
    · rename_i hnone
      rw [hsplit] at hnone
      cases hnone
    · rename_i found hfound
      rw [hsplit] at hfound
      cases hfound
      cases buildAt limits nesting (splits + 1) split.left with
      | error e => rfl
      | ok left => cases buildAt limits nesting (splits + 1) split.right <;> rfl

/-- A derivation that keeps to both limits is followed by the builder. -/
theorem buildAt_of_builds {limits : Limits} {nesting splits height : Nat} {tokens : List Token}
    {expr : Expr} (h : Builds height tokens expr) (hnesting : nesting + height ≤ limits.nesting)
    (hdepth : splits + expr.depth ≤ limits.chain + 1) :
    buildAt limits nesting splits tokens = .ok expr := by
  have hpos := expr.one_le_depth
  induction h generalizing nesting splits with
  | number hx =>
      rw [buildAt, if_neg (by omega), if_neg (by omega)]
      simp only [hx]
  | @group height text tokens expr hscan _ ih =>
      rw [buildAt_group (by omega) (by omega) hscan]
      exact ih (by omega) hdepth hpos
  | @split i j tokens split left right hsplit hleft hright ihleft ihright =>
      simp only [Expr.depth] at hdepth
      have hleftOk := @ihleft nesting (splits + 1) (by omega) (by omega) left.one_le_depth
      have hrightOk := @ihright nesting (splits + 1) (by omega) (by omega) right.one_le_depth
      rw [buildAt_split (by omega) (by omega) hsplit hleft.ne_nil, hleftOk, hrightOk]
      rfl

/-- The builder returns an expression exactly if the rules derive it within the limits. -/
theorem buildAt_eq_ok_iff {limits : Limits} {nesting splits : Nat} {tokens : List Token}
    {expr : Expr} :
    buildAt limits nesting splits tokens = .ok expr ↔
      ∃ height, Builds height tokens expr ∧ nesting + height ≤ limits.nesting ∧
        splits + expr.depth ≤ limits.chain + 1 := by
  constructor
  · exact builds_of_buildAt
  · rintro ⟨height, h, hnesting, hdepth⟩
    exact buildAt_of_builds h hnesting hdepth

/-- What is built from tokens are the expressions with a derivation inside the limits. -/
theorem build_eq_ok_iff {limits : Limits} {tokens : List Token} {expr : Expr} :
    build limits tokens = .ok expr ↔
      ∃ height, Builds height tokens expr ∧ height ≤ limits.nesting ∧
        expr.depth ≤ limits.chain + 1 := by
  rw [build, buildAt_eq_ok_iff]
  simp only [Nat.zero_add]

/-- What is read from a text are the expressions with a derivation from its tokens inside the
    limits. -/
theorem parse_eq_ok_iff {limits : Limits} {text : Text} {expr : Expr} :
    parse limits text = .ok expr ↔
      ∃ tokens height, Token.Spells text tokens ∧ Builds height tokens expr ∧
        height ≤ limits.nesting ∧ expr.depth ≤ limits.chain + 1 := by
  unfold parse
  constructor
  · intro h
    split at h
    · cases h
    · rename_i tokens hscan
      obtain ⟨height, hbuilds, hheight, hdepth⟩ := build_eq_ok_iff.1 h
      exact ⟨tokens, height, Token.scan_eq_ok_iff_spells.1 hscan, hbuilds, hheight, hdepth⟩
  · rintro ⟨tokens, height, hspells, hbuilds, hheight, hdepth⟩
    rw [Token.scan_eq_ok_iff_spells.2 hspells]
    exact build_eq_ok_iff.2 ⟨height, hbuilds, hheight, hdepth⟩

end Parse

/-! ### How much a list of tokens can ask of the limits

Every operator on a path and every open group has a character of its own: operators among the tokens
or inside a group, brackets inside a group. A group without brackets, which no text gives, asks for
one more. -/

namespace Token

/-- The characters of a token that can hold operators and brackets. -/
def extent : Token → Nat
  | number _ => 0
  | operator _ => 1
  | group text => text.length

/-- The extents of a list of tokens together. -/
def extents : List Token → Nat
  | [] => 0
  | token :: tokens => token.extent + extents tokens

theorem extents_cons (token : Token) (tokens : List Token) :
    extents (token :: tokens) = token.extent + extents tokens := rfl

/-- Extents add up. -/
theorem extents_append (before behind : List Token) :
    extents (before ++ behind) = extents before + extents behind := by
  induction before with
  | nil => exact (Nat.zero_add _).symm
  | cons token before ih => rw [List.cons_append, extents_cons, extents_cons, ih, Nat.add_assoc]

theorem extents_group (text : Text) : extents [group text] = text.length := rfl

/-- The tokens of a text have no more extent than the text has characters. -/
theorem Spells.extents_le {text : Text} {tokens : List Token} (h : Spells text tokens) :
    extents tokens ≤ text.length := by
  induction h with
  | nil => exact Nat.zero_le _
  | @cons gap rest token tokens _ _ _ _ ih =>
      have htoken : token.extent ≤ token.text.length := by
        cases token with
        | number literal => exact Nat.zero_le _
        | operator op => exact Nat.le_refl 1
        | group text => exact Nat.le_refl _
      rw [extents_cons, List.length_append, List.length_append]
      omega

end Token

theorem Bracket.length_stripOuter_le (text : Text) : (stripOuter text).length ≤ text.length :=
  (stripOuter_sublist text).length_le

/-- What holds of all tokens holds of those on either side of their split. -/
theorem Split.forall_mem {p : Token → Prop} {tokens : List Token} {split : Split}
    (h : loosest? tokens = some split) (hall : ∀ token ∈ tokens, p token) :
    (∀ token ∈ split.left, p token) ∧ ∀ token ∈ split.right, p token := by
  rw [← tokens_of_loosest? h, Split.tokens] at hall
  constructor
  · intro token hmem
    exact hall token (List.mem_append_left _ hmem)
  · intro token hmem
    exact hall token (List.mem_append_right _ (List.mem_cons_of_mem _ hmem))

/-- A split takes an operator, which is one character, out of the extent. -/
theorem Split.extents_eq {tokens : List Token} {split : Split} (h : loosest? tokens = some split) :
    Token.extents tokens = Token.extents split.left + 1 + Token.extents split.right := by
  rw [← tokens_of_loosest? h, Split.tokens, Token.extents_append, Token.extents_cons, Token.extent,
    Nat.add_assoc]

namespace Parse.Builds

/-- An expression is no deeper than its tokens have room for operators. -/
theorem depth_le {height : Nat} {tokens : List Token} {expr : Expr} (h : Builds height tokens expr) :
    expr.depth ≤ Token.extents tokens + 1 := by
  induction h with
  | number => exact Nat.le_refl 1
  | @group height text tokens expr hscan _ ih =>
      have hinner := (Token.scan_eq_ok_iff_spells.1 hscan).extents_le
      have hstrip := Bracket.length_stripOuter_le text
      rw [Token.extents_group]
      omega
  | split hsplit _ _ ihleft ihright =>
      rw [Split.extents_eq hsplit]
      simp only [Expr.depth]
      omega

/-- Groups with brackets open at most as many groups as they have characters. -/
theorem height_le_of_wellFormed {height : Nat} {tokens : List Token} {expr : Expr}
    (h : Builds height tokens expr) (hwell : ∀ token ∈ tokens, token.WellFormed) :
    height ≤ Token.extents tokens := by
  induction h with
  | number => exact Nat.zero_le _
  | @group height text tokens expr hscan _ ih =>
      obtain ⟨w, -, rfl⟩ := hwell _ List.mem_cons_self
      rw [Bracket.stripOuter_enclose] at hscan
      have hspells := Token.scan_eq_ok_iff_spells.1 hscan
      have hinner := hspells.extents_le
      have := ih hspells.wellFormed
      rw [Token.extents_group, Bracket.enclose, List.length_cons, List.length_append]
      omega
  | @split i j tokens split left right hsplit _ _ ihleft ihright =>
      obtain ⟨hwellLeft, hwellRight⟩ := Split.forall_mem hsplit hwell
      have hi := ihleft hwellLeft
      have hj := ihright hwellRight
      rw [Split.extents_eq hsplit]
      omega

/-- An expression is no more nested than its tokens have room for brackets. -/
theorem height_le {height : Nat} {tokens : List Token} {expr : Expr} (h : Builds height tokens expr) :
    height ≤ Token.extents tokens + 1 := by
  induction h with
  | number => exact Nat.zero_le _
  | @group height text tokens expr hscan hinner _ =>
      have hspells := Token.scan_eq_ok_iff_spells.1 hscan
      have hheight := hinner.height_le_of_wellFormed hspells.wellFormed
      have hlength := hspells.extents_le
      have hstrip := Bracket.length_stripOuter_le text
      rw [Token.extents_cons, Token.extent]
      omega
  | split hsplit _ _ ihleft ihright =>
      rw [Split.extents_eq hsplit]
      omega

end Parse.Builds

namespace Parse

/-- With room for the extents of the tokens, the limits decide nothing. -/
theorem build_eq_ok_iff_of_le {limits : Limits} {tokens : List Token} {expr : Expr}
    (hnesting : Token.extents tokens + 1 ≤ limits.nesting)
    (hchain : Token.extents tokens ≤ limits.chain) :
    build limits tokens = .ok expr ↔ ∃ height, Builds height tokens expr := by
  rw [build_eq_ok_iff]
  constructor
  · rintro ⟨height, h, -⟩
    exact ⟨height, h⟩
  · rintro ⟨height, h⟩
    have hheight := h.height_le
    have hdepth := h.depth_le
    exact ⟨height, h, by omega, by omega⟩

/-- With room for the characters of the text, the limits decide nothing. -/
theorem parse_eq_ok_iff_of_le {limits : Limits} {text : Text} {expr : Expr}
    (hnesting : text.length ≤ limits.nesting) (hchain : text.length ≤ limits.chain) :
    parse limits text = .ok expr ↔
      ∃ tokens height, Token.Spells text tokens ∧ Builds height tokens expr := by
  rw [parse_eq_ok_iff]
  constructor
  · rintro ⟨tokens, height, hspells, h, -⟩
    exact ⟨tokens, height, hspells, h⟩
  · rintro ⟨tokens, height, hspells, h⟩
    have hextents := hspells.extents_le
    have hheight := h.height_le_of_wellFormed hspells.wellFormed
    have hdepth := h.depth_le
    exact ⟨tokens, height, hspells, h, by omega, by omega⟩

end Parse

end Calculator
