/-
Module: Calculator.Proofs.CanonicalForm
Layer: Proofs
Purpose: Reading canonical forms back. The canonical form of an expression is one token, a literal or
  a group, if all its numbers are finite and without a sign; the group holds the forms of both
  operands around an operator, so every operator is one open group and one split. Such a form is read
  as the expression it was written from exactly if the limits hold its depth, and the form of any
  other expression is refused: a sign is an operator without an operand to its left, and no token
  starts with a letter. Expressions that were read from a text have only plain numbers, but a long
  row of operators can make them deeper than groups may be nested.
Imports: Calculator.Expr.Canonical, Calculator.Proofs.Grammar
Trusted boundary: none (fully proved)
Main exports: Expr.Plain, Expr.operand, Expr.Plain.builds, Expr.plain_of_readable,
  Expr.parse_canonical_eq_ok_iff, Expr.Plain.parse_canonical, Expr.plain_of_parse
-/
import Calculator.Expr.Canonical
import Calculator.Proofs.Grammar

namespace Calculator

open Text (Blanks)
open Token (Spells)
open Parse (Operand Alternates Builds Layout)
open Grammar (Readable)

/-! ### The texts of doubles -/

namespace Binary64

/-- A magnitude is written as a literal, unless it is infinite. -/
theorem magnitudeText_eq (magnitude : Nat) :
    magnitudeText magnitude = ['i', 'n', 'f'] ∨ Numeral.IsLiteral (magnitudeText magnitude) := by
  unfold magnitudeText
  split
  · exact Or.inl rfl
  · exact Or.inr (Decimal.ofText?_positional _).1

theorem balanced_magnitudeText (magnitude : Nat) : Bracket.Balanced (magnitudeText magnitude) := by
  rcases magnitudeText_eq magnitude with h | h
  · rw [h]
    rfl
  · exact Token.balanced_literal h

/-- No text of a number has brackets. -/
theorem balanced_toText (x : Binary64) : Bracket.Balanced x.toText := by
  unfold toText
  split
  · rfl
  · split
    · exact (Token.balanced_symbol .sub).append (balanced_magnitudeText x.magnitude)
    · exact balanced_magnitudeText x.magnitude

/-- A number at the start of operands and operators in turn is finite and without a sign. -/
theorem plain_of_lex {x : Binary64} {before rest : Text} {tokens : List Token}
    (hbefore : Blanks before) (hlex : Token.lex (before ++ (x.toText ++ rest)) = .ok tokens)
    (halternates : Alternates tokens) : x.isFinite = true ∧ x.negative = false := by
  rw [Token.lex_blanks_append hbefore] at hlex
  unfold toText at hlex
  split at hlex
  · -- No token starts with the letter of what is no number.
    rw [List.cons_append, Token.lex_stray _ (by decide) (by decide) (by decide) (by decide)] at hlex
    cases hlex
  · rename_i hnan
    split at hlex
    · -- The sign is read as an operator, and no operand stands before it.
      rw [List.cons_append, show '-' = Operator.sub.symbol from rfl, Token.lex_symbol] at hlex
      cases hrest : Token.lex (magnitudeText x.magnitude ++ rest) with
      | error stop =>
          rw [hrest] at hlex
          cases hlex
      | ok more =>
          rw [hrest] at hlex
          cases hlex
          exact absurd rfl (halternates.ne_operator_cons .sub more)
    · rename_i hsign
      unfold magnitudeText at hlex
      split at hlex
      · rw [List.cons_append, Token.lex_stray _ (by decide) (by decide) (by decide) (by decide)]
          at hlex
        cases hlex
      · rename_i hinfinite
        have hle : x.magnitude ≤ infinity := by simpa [isNaN] using hnan
        exact ⟨decide_eq_true (Nat.lt_of_le_of_ne hle hinfinite), Bool.eq_false_of_not_eq_true hsign⟩

end Binary64

/-! ### Canonical forms as tokens -/

namespace Expr

/-- All numbers of the expression are finite and without a sign. -/
def Plain : Expr → Prop
  | number x => x.isFinite = true ∧ x.negative = false
  | binary left _ right => left.Plain ∧ right.Plain

/-- The operand as which the canonical form of an expression with plain numbers is read. -/
def operand : Expr → Operand
  | number x => .number x.toText
  | binary left op right => .group (binary left op right).canonical

/-- The text of the operand is the canonical form. -/
theorem text_operand (t : Expr) : t.operand.token.text = t.canonical := by
  cases t <;> rfl

/-- What stands between the brackets of a canonical form. -/
def inside (left : Expr) (op : Operator) (right : Expr) : Text :=
  (left.canonical ++ [' ']) ++ op.symbol :: ' ' :: right.canonical

/-- The canonical form of an operation encloses its two operands and the operator between spaces. -/
theorem canonical_binary (left : Expr) (op : Operator) (right : Expr) :
    (binary left op right).canonical = Bracket.enclose (inside left op right) := by
  simp [canonical, inside, Bracket.enclose]

theorem blanks_space : Blanks [' '] := Text.blanks_singleton (by decide)

theorem balanced_canonical_space {t : Expr} (h : Bracket.Balanced t.canonical) :
    Bracket.Balanced (t.canonical ++ [' ']) :=
  h.append (Token.balanced_blanks blanks_space)

theorem balanced_inside {left right : Expr} (op : Operator) (hleft : Bracket.Balanced left.canonical)
    (hright : Bracket.Balanced right.canonical) : Bracket.Balanced (inside left op right) :=
  (balanced_canonical_space hleft).append
    ((Token.balanced_symbol op).append ((Token.balanced_blanks blanks_space).append hright))

/-- A canonical form is balanced, whatever its numbers are. -/
theorem balanced_canonical (t : Expr) : Bracket.Balanced t.canonical := by
  induction t with
  | number x => exact x.balanced_toText
  | binary left op right ihleft ihright =>
      rw [canonical_binary]
      exact (balanced_inside op ihleft ihright).enclose

/-- The form of an operator is one token, whatever its operands are. -/
theorem wellFormed_group (left : Expr) (op : Operator) (right : Expr) :
    Token.WellFormed (.group (binary left op right).canonical) :=
  ⟨inside left op right, balanced_inside op left.balanced_canonical right.balanced_canonical,
    canonical_binary left op right⟩

/-- With plain numbers, a canonical form is a token that the scanner can make. -/
theorem Plain.wellFormed {t : Expr} (h : t.Plain) : t.operand.token.WellFormed := by
  cases t with
  | number x => exact Binary64.isLiteral_toText h.1 h.2
  | binary left op right => exact wellFormed_group left op right

/-- Between blanks, too, a canonical form with plain numbers is scanned as a single token. -/
theorem Plain.spells {t : Expr} (h : t.Plain) {before behind : Text} (hbefore : Blanks before)
    (hbehind : Blanks behind) : Spells (before ++ (t.canonical ++ behind)) [t.operand.token] := by
  rw [← t.text_operand]
  exact .single hbefore h.wellFormed hbehind

/-- The tokens that stand between the brackets. -/
def insideTokens (left : Expr) (op : Operator) (right : Expr) : List Token :=
  [left.operand.token, .operator op, right.operand.token]

/-- Between its brackets, a canonical form has one operator, at which it is split. -/
theorem loosest?_insideTokens (left : Expr) (op : Operator) (right : Expr) :
    Split.loosest? (insideTokens left op right) =
      some ⟨[left.operand.token], op, [right.operand.token]⟩ := by
  have hordered : Layout.Ordered (.node (.operand left.operand) op (.operand right.operand)) := by
    refine ⟨?_, ?_, trivial, trivial⟩
    · intro o ho
      cases ho
    · intro o ho
      cases ho
  exact hordered.loosest?

/-- Without its outer brackets, a canonical form is scanned as operand, operator, operand. -/
theorem scan_inside {left right : Expr} (op : Operator) (hleft : left.Plain) (hright : right.Plain) :
    Token.scan (Bracket.stripOuter (binary left op right).canonical) =
      .ok (insideTokens left op right) := by
  rw [canonical_binary, Bracket.stripOuter_enclose, Token.scan_eq_ok_iff_spells]
  have hspells := (hleft.spells Text.blanks_nil blanks_space).join op
    (hright.spells blanks_space Text.blanks_nil)
  rw [List.append_nil] at hspells
  exact hspells

/-- Every operator of the expression opens one group. -/
theorem Plain.builds {t : Expr} (h : t.Plain) : Builds (t.depth - 1) [t.operand.token] t := by
  induction t with
  | number x => exact .number (Binary64.read?_toText h.1 h.2)
  | binary left op right ihleft ihright =>
      have hinner := Builds.split (loosest?_insideTokens left op right) (ihleft h.1) (ihright h.2)
      have hbuilds := Builds.group (scan_inside op h.1 h.2) hinner
      have hheight : max (left.depth - 1) (right.depth - 1) + 1 = (binary left op right).depth - 1 := by
        have := left.one_le_depth
        simp only [depth]
        omega
      rw [hheight] at hbuilds
      exact hbuilds

/-! ### What the numbers of a readable form are -/

/-- A readable canonical form has a readable text between its brackets. -/
theorem readable_inside {left right : Expr} {op : Operator} {before behind : Text}
    (hbefore : Blanks before) (hbehind : Blanks behind)
    (h : Readable .expression (before ++ ((binary left op right).canonical ++ behind))) :
    Readable .expression (inside left op right) := by
  obtain ⟨tokens, hspells, -, hoperands⟩ := h
  have hgroup := Spells.single hbefore (wellFormed_group left op right) hbehind
  obtain rfl := hspells.unique hgroup
  obtain ⟨expr, height, hbuilds⟩ :=
    hoperands (.group (binary left op right).canonical) List.mem_cons_self
  cases hbuilds with
  | group hscan hinner =>
      rw [canonical_binary, Bracket.stripOuter_enclose] at hscan
      exact Grammar.readable_of_builds hinner (Token.scan_eq_ok_iff_spells.1 hscan)
  | split hsplit _ _ => cases hsplit

/-- Only forms of expressions with plain numbers are readable, between any blanks. -/
theorem plain_of_readable {t : Expr} {before behind : Text} (hbefore : Blanks before)
    (hbehind : Blanks behind) (h : Readable .expression (before ++ (t.canonical ++ behind))) :
    t.Plain := by
  induction t generalizing before behind with
  | number x =>
      obtain ⟨tokens, hspells, halternates, -⟩ := h
      exact Binary64.plain_of_lex hbefore (Token.lex_of_spells hspells) halternates
  | binary left op right ihleft ihright =>
      have hinside := readable_inside hbefore hbehind h
      obtain ⟨hleft, hright⟩ :=
        Grammar.readable_cut (balanced_canonical_space left.balanced_canonical) hinside
      refine ⟨ihleft Text.blanks_nil blanks_space hleft, ihright blanks_space Text.blanks_nil ?_⟩
      rw [List.append_nil]
      exact hright

/-- As a whole text, a canonical form with plain numbers is scanned as a single token. -/
theorem Plain.spells_canonical {t : Expr} (h : t.Plain) : Spells t.canonical [t.operand.token] := by
  have hspells := h.spells Text.blanks_nil Text.blanks_nil
  rw [List.append_nil] at hspells
  exact hspells

/-- A canonical form is read as the expression it was written from or refused. It is read exactly if
    all numbers are plain and both limits hold the operators on every path. -/
theorem parse_canonical_eq_ok_iff (limits : Limits) (t u : Expr) :
    Parse.parse limits t.canonical = .ok u ↔
      u = t ∧ t.Plain ∧ t.depth - 1 ≤ min limits.nesting limits.chain := by
  rw [Parse.parse_eq_ok_iff]
  constructor
  · rintro ⟨tokens, height, hspells, hbuilds, hheight, hdepth⟩
    have hplain : t.Plain := by
      apply plain_of_readable Text.blanks_nil Text.blanks_nil
      rw [List.append_nil]
      exact Grammar.readable_of_builds hbuilds hspells
    obtain rfl := hspells.unique hplain.spells_canonical
    obtain ⟨rfl, rfl⟩ := hbuilds.unique hplain.builds
    exact ⟨rfl, hplain, by omega⟩
  · rintro ⟨rfl, hplain, hdepth⟩
    exact ⟨_, _, hplain.spells_canonical, hplain.builds, by omega, by omega⟩

/-! ### Forms that are nested too deeply -/

/-- A form that is deeper than the groups may be nested is refused for that, provided that the
    operators on a path do not reach their own limit first: below each group stands one operator, so
    the builder never has more operators above it than groups around it. -/
theorem Plain.buildAt_error {limits : Limits} (hlimits : limits.nesting ≤ limits.chain) {t : Expr}
    (h : t.Plain) {nesting splits : Nat} (hsplits : splits ≤ nesting)
    (hdeep : limits.nesting + 1 < nesting + t.depth) :
    Parse.buildAt limits nesting splits [t.operand.token] =
      .error (.nestedTooDeeply limits.nesting) := by
  induction t generalizing nesting splits with
  | number x => exact Parse.buildAt_nestedTooDeeply _ _ (Nat.lt_of_succ_lt_succ hdeep)
  | binary left op right ihleft ihright =>
      rcases Nat.lt_or_ge limits.nesting nesting with hnesting | hnesting
      · exact Parse.buildAt_nestedTooDeeply _ _ hnesting
      rw [operand, Operand.token,
        Parse.buildAt_group hnesting (by omega) (scan_inside op h.1 h.2)]
      rcases Nat.lt_or_ge limits.nesting (nesting + 1) with hinner | hinner
      · exact Parse.buildAt_nestedTooDeeply _ _ hinner
      rw [Parse.buildAt_split hinner (by omega) (loosest?_insideTokens left op right)
        (List.cons_ne_nil _ _)]
      simp only [depth] at hdeep
      -- The left operand is built first, so the error is its own or else that of the right one.
      rcases Nat.lt_or_ge (limits.nesting + 1) (nesting + 1 + left.depth) with hleft | hleft
      · rw [ihleft h.1 (Nat.succ_le_succ hsplits) hleft]
        rfl
      · have hleftOk := @Parse.buildAt_of_builds limits (nesting + 1) (splits + 1) _ _ _ h.1.builds
          (by omega) (by omega)
        rw [hleftOk, ihright h.2 (Nat.succ_le_succ hsplits) (by omega)]
        rfl

/-- With more room for operators than for groups, reading a canonical form of plain numbers fails only
    by its nesting. -/
theorem Plain.parse_canonical {limits : Limits} (hlimits : limits.nesting ≤ limits.chain) {t : Expr}
    (h : t.Plain) :
    Parse.parse limits t.canonical =
      if t.depth ≤ limits.nesting + 1 then .ok t else .error (.nestedTooDeeply limits.nesting) := by
  have hscan := Token.scan_eq_ok_iff_spells.2 h.spells_canonical
  rw [Parse.parse, hscan]
  change Parse.buildAt limits 0 0 [t.operand.token] = _
  by_cases hdepth : t.depth ≤ limits.nesting + 1
  · rw [if_pos hdepth]
    apply Parse.buildAt_of_builds h.builds
    · omega
    · omega
  · rw [if_neg hdepth]
    apply h.buildAt_error hlimits (Nat.le_refl 0)
    omega

/-- Well formed tokens build expressions with plain numbers. -/
theorem plain_of_builds {height : Nat} {tokens : List Token} {expr : Expr}
    (h : Builds height tokens expr) (hwell : ∀ token ∈ tokens, token.WellFormed) : expr.Plain := by
  induction h with
  | number hx => exact Numeral.IsLiteral.read? (hwell _ List.mem_cons_self) hx
  | group hscan _ ih => exact ih (Token.scan_eq_ok_iff_spells.1 hscan).wellFormed
  | split hsplit _ _ ihleft ihright =>
      obtain ⟨hleft, hright⟩ := Split.forall_mem hsplit hwell
      exact ⟨ihleft hleft, ihright hright⟩

/-- Whatever is read from a text has plain numbers. -/
theorem plain_of_parse {limits : Limits} {text : Text} {t : Expr}
    (h : Parse.parse limits text = .ok t) : t.Plain := by
  obtain ⟨tokens, height, hspells, hbuilds, -⟩ := Parse.parse_eq_ok_iff.1 h
  exact plain_of_builds hbuilds hspells.wellFormed

/-- With the default limits, an expression that was read from a text is read back from its canonical
    form if at most 512 operators lie on a path, and otherwise the form is refused. -/
theorem parse_canonical_of_parse {text : Text} {t : Expr} (h : Parse.parse {} text = .ok t) :
    Parse.parse {} t.canonical =
      if t.depth ≤ 513 then .ok t else .error (.nestedTooDeeply 512) :=
  (plain_of_parse h).parse_canonical (by decide)

/-- The canonical form of a chain, read again, gives the same expression. -/
theorem parse_canonical_of_difference :
    ∃ t, Parse.parse {} "1 - 2 + (3)".toList = .ok t ∧ Parse.parse {} t.canonical = .ok t := by
  have h : Parse.parse {} "1 - 2 + (3)".toList =
      .ok (.binary (.number (.ofBits 0x3ff0000000000000)) .sub
        (.binary (.number (.ofBits 0x4000000000000000)) .add
          (.number (.ofBits 0x4008000000000000)))) := by decide +kernel
  exact ⟨_, h, (parse_canonical_of_parse h).trans (if_pos (by decide))⟩

/-! ### Long sums

A row of operators opens no group, so it is limited only by the operators on a path. Its canonical
form opens a group for each of them. -/

/-- What the literal `1` is read as. -/
def one : Expr := number (.ofBits 0x3ff0000000000000)

/-- One, and one added to it `n` times. -/
def tally : Nat → Expr
  | 0 => one
  | n + 1 => binary (tally n) .add one

/-- The tokens of a tally without brackets. -/
def tallyTokens : Nat → List Token
  | 0 => [.number ['1']]
  | n + 1 => tallyTokens n ++ [.operator .add, .number ['1']]

/-- A tally without blanks and brackets. -/
def tallyText : Nat → Text
  | 0 => ['1']
  | n + 1 => tallyText n ++ ['+', '1']

/-- Each operator of the chain makes the expression deeper by one. -/
theorem depth_tally (n : Nat) : (tally n).depth = n + 1 := by
  induction n with
  | zero => rfl
  | succ n ih =>
      rw [tally, depth, ih]
      simp [one, depth]

theorem spells_one : Spells ['1'] [.number ['1']] := by
  have hrow : Numeral.IsRow ['1'] := Numeral.isRow_singleton rfl
  exact @Spells.single [] [] (.number ['1']) Text.blanks_nil (.whole hrow) Text.blanks_nil

/-- The text of the chain is scanned as its tokens. -/
theorem spells_tally (n : Nat) : Spells (tallyText n) (tallyTokens n) := by
  induction n with
  | zero => exact spells_one
  | succ n ih => exact ih.join .add spells_one

/-- The chain has no operator but the plus sign. -/
theorem operator_mem_tallyTokens {n : Nat} {op : Operator} (h : .operator op ∈ tallyTokens n) :
    op = .add := by
  induction n with
  | zero => cases List.mem_singleton.1 h
  | succ n ih =>
      rcases List.mem_append.1 h with h | h
      · exact ih h
      · simpa using h

/-- The chain builds its expression without any nesting. -/
theorem builds_tally (n : Nat) : Builds 0 (tallyTokens n) (tally n) := by
  have hone : Builds 0 [.number ['1']] one := .number (by decide +kernel)
  induction n with
  | zero => exact hone
  | succ n ih =>
      have hloosest : Split.Loosest ⟨tallyTokens n, .add, [.number ['1']]⟩ := by
        refine ⟨?_, ?_⟩
        · intro op hop
          rw [operator_mem_tallyTokens hop]
        · intro op hop
          cases List.mem_singleton.1 hop
      exact .split (Split.loosest?_tokens hloosest) ih hone

/-- A tally is read as long as its operators fit on a path. -/
theorem parse_tallyText {limits : Limits} {n : Nat} (h : n ≤ limits.chain) :
    Parse.parse limits (tallyText n) = .ok (tally n) := by
  apply Parse.parse_eq_ok_iff.2
  refine ⟨tallyTokens n, 0, spells_tally n, builds_tally n, Nat.zero_le _, ?_⟩
  rw [depth_tally]
  exact Nat.succ_le_succ h

/-- A sum of 514 ones is read, but its canonical form is not. -/
theorem canonical_tally_refused :
    Parse.parse {} (tallyText 513) = .ok (tally 513) ∧
      Parse.parse {} (tally 513).canonical = .error (.nestedTooDeeply 512) := by
  have hread : Parse.parse {} (tallyText 513) = .ok (tally 513) := parse_tallyText (by decide)
  have hdepth : ¬ (tally 513).depth ≤ 512 + 1 := by
    rw [depth_tally]
    decide
  exact ⟨hread, ((plain_of_parse hread).parse_canonical (by decide)).trans (if_neg hdepth)⟩

end Expr

end Calculator
