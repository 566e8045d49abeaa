/-
Module: Calculator.Proofs.Limits
Layer: Proofs
Purpose: What the two limits decide. The nesting of a text is the largest number of brackets that one
  of its prefixes leaves open, and it is the number of groups that the rules of building open around
  the innermost token. So a text is read within given limits exactly if it is read with room for all
  its characters, its nesting keeps to the first limit and the depth of the expression to the second.
  A larger limit never changes any other answer: two runs of the builder within different limits take
  the same steps, and the first error of the one is the first error of the other unless it is the
  error of a limit.
Imports: Calculator.Proofs.Derivation, Mathlib.Data.List.Infix
Trusted boundary: none (fully proved)
Main exports: Bracket.nesting, Bracket.nesting_le_iff, Parse.Builds.nesting_eq,
  Parse.parse_eq_ok_iff_nesting, Parse.step, Parse.buildAt_eq_step, Parse.Steady,
  Parse.buildAt_steady, Parse.steady_of_le
-/
import Calculator.Proofs.Derivation
import Mathlib.Data.List.Infix

namespace Calculator

/-! ### The nesting of a text -/

namespace Bracket

/-- The largest number of brackets that a prefix of the text opens and does not close. A prefix that
    closes more of them than it opens counts as the empty one, which leaves none open. -/
def nesting (text : Text) : Nat :=
  (text.inits.map fun before => before.count '(' - before.count ')').foldr max 0

/-- The nesting of a text is the least bound on what its beginnings leave open. -/
theorem nesting_le_iff {text : Text} {m : Nat} :
    nesting text ≤ m ↔ ∀ before, before <+: text → before.count '(' ≤ before.count ')' + m := by
  have hfold (levels : List Nat) : levels.foldr max 0 ≤ m ↔ ∀ level ∈ levels, level ≤ m := by
    induction levels with
    | nil => simp
    | cons level levels ih => simp only [List.foldr_cons, Nat.max_le, ih, List.forall_mem_cons]
  simp only [nesting, hfold, List.forall_mem_map, List.mem_inits, Nat.sub_le_iff_le_add']

theorem nesting_nil : nesting [] = 0 := rfl

/-- Of the beginnings, it is enough to look at those that are not empty. -/
theorem nesting_cons_le_iff {c : Char} {rest : Text} {m : Nat} :
    nesting (c :: rest) ≤ m ↔
      ∀ before, before <+: rest → (c :: before).count '(' ≤ (c :: before).count ')' + m := by
  rw [nesting_le_iff]
  constructor
  · intro h before hbefore
    exact h (c :: before) ((List.prefix_cons_inj c).2 hbefore)
  · intro h before hbefore
    rcases List.prefix_cons_iff.1 hbefore with rfl | ⟨tail, rfl, htail⟩
    · exact Nat.zero_le _
    · exact h tail htail

@[simp] theorem nesting_open (rest : Text) : nesting ('(' :: rest) = nesting rest + 1 := by
  apply eq_of_forall_ge_iff
  intro m
  rw [nesting_cons_le_iff]
  simp only [List.count_cons_self, List.count_cons_of_ne (show '(' ≠ ')' by decide)]
  constructor
  · intro h
    -- Already the bracket itself needs room.
    have hm : 1 ≤ m := by simpa using h [] List.nil_prefix
    have hrest : nesting rest ≤ m - 1 := by
      apply nesting_le_iff.2
      intro before hbefore
      have := h before hbefore
      omega
    omega
  · intro h before hbefore
    have := nesting_le_iff.1 (Nat.le_refl _) before hbefore
    omega

@[simp] theorem nesting_close (rest : Text) : nesting (')' :: rest) = nesting rest - 1 := by
  apply eq_of_forall_ge_iff
  intro m
  rw [nesting_cons_le_iff, Nat.sub_le_iff_le_add, nesting_le_iff]
  apply forall₂_congr
  intro before _
  rw [List.count_cons_self, List.count_cons_of_ne (show ')' ≠ '(' by decide)]
  omega

theorem nesting_other {c : Char} (rest : Text) (hopen : c ≠ '(') (hclose : c ≠ ')') :
    nesting (c :: rest) = nesting rest := by
  apply eq_of_forall_ge_iff
  intro m
  rw [nesting_cons_le_iff, nesting_le_iff]
  simp only [List.count_cons_of_ne hopen, List.count_cons_of_ne hclose]

/-- Behind a text that leads from `depth` open brackets to `e` of them, the nesting counts from `e`. -/
theorem nesting_append_of_level {depth e : Nat} {s : Text} (h : level depth s = some e) (t : Text) :
    nesting (s ++ t) + depth = max (nesting s + depth) (nesting t + e) := by
  induction s generalizing depth with
  | nil =>
      cases h
      simp [nesting_nil]
  | cons c s ih =>
      by_cases hopen : c = '('
      · subst hopen
        have := ih h
        rw [List.cons_append, nesting_open, nesting_open]
        omega
      · by_cases hclose : c = ')'
        · subst hclose
          cases depth with
          | zero => cases h
          | succ d =>
              rw [level_close_succ] at h
              have := ih h
              rw [List.cons_append, nesting_close, nesting_close]
              omega
        · rw [level_other depth s hopen hclose] at h
          rw [List.cons_append, nesting_other _ hopen hclose, nesting_other _ hopen hclose]
          exact ih h

/-- Behind a balanced text, nesting starts anew. -/
theorem Balanced.nesting_append {s : Text} (h : Balanced s) (t : Text) :
    nesting (s ++ t) = max (nesting s) (nesting t) :=
  nesting_append_of_level h t

/-- Brackets around a balanced text nest it by one more. -/
theorem Balanced.nesting_enclose {w : Text} (h : Balanced w) :
    nesting (Bracket.enclose w) = nesting w + 1 := by
  have hclose : nesting [')'] = 0 := rfl
  rw [Bracket.enclose, nesting_open, h.nesting_append, hclose, Nat.max_zero]

/-- Without an opening bracket, nothing is nested. -/
theorem nesting_eq_zero {text : Text} (h : '(' ∉ text) : nesting text = 0 := by
  apply Nat.le_zero.1
  apply nesting_le_iff.2
  intro before hbefore
  have hcount : before.count '(' = 0 := List.count_eq_zero.2 fun hmem => h (hbefore.subset hmem)
  rw [hcount]
  exact Nat.zero_le _

end Bracket

/-! ### Groups open brackets -/

namespace Token

open Text (Blanks)

theorem nesting_blanks {gap : Text} (h : Blanks gap) : Bracket.nesting gap = 0 := by
  apply Bracket.nesting_eq_zero
  intro hmem
  exact absurd (h _ hmem) (by decide)

theorem nesting_literal {literal : Text} (h : Numeral.IsLiteral literal) :
    Bracket.nesting literal = 0 := by
  apply Bracket.nesting_eq_zero
  intro hmem
  exact absurd (h.forall_mem _ hmem) (by decide)

/-- Blanks around a token are not nested. -/
theorem Spells.nesting_single {text : Text} {token : Token} (h : Spells text [token]) :
    Bracket.nesting text = Bracket.nesting token.text := by
  cases h with
  | cons hgap htoken _ hrest =>
      cases hrest with
      | nil hbehind =>
          rw [(balanced_blanks hgap).nesting_append, htoken.balanced.nesting_append,
            nesting_blanks hgap, nesting_blanks hbehind, Nat.zero_max, Nat.max_zero]

/-- On either side of an operator, the nesting starts anew. -/
theorem Spells.nesting_seam {left right : Text} {tokens : List Token} (h : Spells left tokens)
    (op : Operator) :
    Bracket.nesting (left ++ op.symbol :: right) =
      max (Bracket.nesting left) (Bracket.nesting right) := by
  have hsymbol : Bracket.nesting [op.symbol] = 0 := by cases op <;> rfl
  have hright := (balanced_symbol op).nesting_append right
  rw [List.singleton_append, hsymbol, Nat.zero_max] at hright
  rw [h.balanced.nesting_append, hright]

end Token

namespace Parse

open Token (Spells)

/-- The groups open around the innermost token are the brackets open around it in the text. -/
theorem Builds.nesting_eq {height : Nat} {tokens : List Token} {expr : Expr} {text : Text}
    (h : Builds height tokens expr) (hspells : Spells text tokens) :
    Bracket.nesting text = height := by
  induction h generalizing text with
  | number =>
      rw [hspells.nesting_single]
      exact Token.nesting_literal (hspells.wellFormed _ List.mem_cons_self)
  | group hscan _ ih =>
      obtain ⟨w, hw, rfl⟩ := hspells.wellFormed _ List.mem_cons_self
      rw [Bracket.stripOuter_enclose] at hscan
      rw [hspells.nesting_single, Token.text, hw.nesting_enclose,
        ih (Token.scan_eq_ok_iff_spells.1 hscan)]
  | split hsplit _ _ ihleft ihright =>
      rw [← Split.tokens_of_loosest? hsplit] at hspells
      obtain ⟨left, right, rfl, hleft, hright⟩ := Spells.cut hspells
      rw [hleft.nesting_seam, ihleft hleft, ihright hright]

/-- A text is read within the limits exactly if it is read with room for all its characters, and its
    nesting and the depth of the expression keep to the limits. -/
theorem parse_eq_ok_iff_nesting {limits roomy : Limits} {text : Text} {expr : Expr}
    (hnesting : text.length ≤ roomy.nesting) (hchain : text.length ≤ roomy.chain) :
    parse limits text = .ok expr ↔
      parse roomy text = .ok expr ∧ Bracket.nesting text ≤ limits.nesting ∧
        expr.depth ≤ limits.chain + 1 := by
  rw [parse_eq_ok_iff, parse_eq_ok_iff_of_le hnesting hchain]
  constructor
  · rintro ⟨tokens, height, hspells, hbuilds, hheight, hdepth⟩
    rw [hbuilds.nesting_eq hspells]
    exact ⟨⟨tokens, height, hspells, hbuilds⟩, hheight, hdepth⟩
  · rintro ⟨⟨tokens, height, hspells, hbuilds⟩, hheight, hdepth⟩
    rw [hbuilds.nesting_eq hspells] at hheight
    exact ⟨tokens, height, hspells, hbuilds, hheight, hdepth⟩

/-- `((1+2))*3` needs room for two open brackets and for two operators on a path. -/
theorem parse_product_of_sum_iff :
    ∃ text expr, text = "((1+2))*3".toList ∧ text.length ≤ Limits.nesting {} ∧
      text.length ≤ Limits.chain {} ∧ parse {} text = .ok expr ∧
      ∀ nesting chain, parse ⟨nesting, chain⟩ text = .ok expr ↔ 2 ≤ nesting ∧ 2 ≤ chain := by
  have hparse : parse {} "((1+2))*3".toList =
      .ok (.binary (.binary (.number (.ofBits 0x3ff0000000000000)) .add
        (.number (.ofBits 0x4000000000000000))) .mul (.number (.ofBits 0x4008000000000000))) := by
    decide +kernel
  have hnesting : Bracket.nesting "((1+2))*3".toList = 2 := by decide
  refine ⟨_, _, rfl, by decide, by decide, hparse, ?_⟩
  intro nesting chain
  rw [@parse_eq_ok_iff_nesting ⟨nesting, chain⟩ {} _ _ (by decide) (by decide), hnesting]
  simp only [hparse, true_and, Expr.depth]
  omega

/-! ### One step of building

Within its limits the builder takes a step that does not look at them, and they decide again in the
calls which the step makes. -/

/-- A step of building: `inside` builds what a group holds, `side` builds either side of a split. -/
def step (inside side : List Token → Except ParseError Expr) : List Token → Except ParseError Expr
  | [] => .error .empty
  | [.group group] =>
      match Token.scan (Bracket.stripOuter group) with
      | .error error => .error (.scan error)
      | .ok inner => inside inner
  | [.number literal] =>
      match Numeral.read? literal with
      | some value => .ok (.number value)
      | none => .error (.badNumber literal)
  | [.operator op] => .error (.noOperator [op.symbol])
  | several =>
      match Split.loosest? several with
      | none => .error (.noOperator (Token.format several))
      | some split =>
          (side split.left).bind fun left =>
            (side split.right).bind fun right => .ok (.binary left split.op right)

/-- Beyond the limit on chains, the limit itself is reported. -/
theorem buildAt_chainedTooLong {limits : Limits} {nesting splits : Nat} (tokens : List Token)
    (hnesting : nesting ≤ limits.nesting) (h : limits.chain < splits) :
    buildAt limits nesting splits tokens = .error (.chainedTooLong limits.chain) := by
  rw [buildAt.eq_def, if_neg (Nat.not_lt.2 hnesting), if_pos h]

/-- Inside both limits, the builder takes a step. -/
theorem buildAt_eq_step {limits : Limits} {nesting splits : Nat} (tokens : List Token)
    (hnesting : nesting ≤ limits.nesting) (hsplits : splits ≤ limits.chain) :
    buildAt limits nesting splits tokens =
      step (buildAt limits (nesting + 1) splits) (buildAt limits nesting (splits + 1)) tokens := by
  rw [buildAt.eq_def, if_neg (Nat.not_lt.2 hnesting), if_neg (Nat.not_lt.2 hsplits)]
  match tokens with
  | [] => rfl
  | [.group group] =>
      simp only [step]
      split
      · rename_i hscan
        rw [hscan]
      · rename_i hscan
        rw [hscan]
  | [.number literal] => rfl
  | [.operator op] => rfl
  | first :: second :: rest =>
      simp only [step]
      split
      · rename_i hsplit
        rw [hsplit]
      · rename_i split hsplit
        simp only [hsplit]
        cases buildAt limits nesting (splits + 1) split.left with
        | error error => rfl
        | ok left => cases buildAt limits nesting (splits + 1) split.right <;> rfl

/-! ### Larger limits -/

/-- The result is the error of a limit. -/
def Limited (limits : Limits) (result : Except ParseError Expr) : Prop :=
  result = .error (.nestedTooDeeply limits.nesting) ∨ result = .error (.chainedTooLong limits.chain)

/-- A result within the limits is the same as one within larger limits, or else a limit gave it. -/
def Steady (limits : Limits) (result larger : Except ParseError Expr) : Prop :=
  Limited limits result ∨ result = larger

/-- A limit that is reported is reported whatever would have followed. -/
theorem Limited.bind {limits : Limits} {result : Except ParseError Expr} (h : Limited limits result)
    (next : Expr → Except ParseError Expr) : Limited limits (result.bind next) := by
  rcases h with rfl | rfl
  · exact Or.inl rfl
  · exact Or.inr rfl

/-- If results are steady, so is what is made of them. -/
theorem Steady.bind {limits : Limits} {result larger : Except ParseError Expr}
    {next next' : Expr → Except ParseError Expr} (h : Steady limits result larger)
    (hnext : ∀ expr, Steady limits (next expr) (next' expr)) :
    Steady limits (result.bind next) (larger.bind next') := by
  rcases h with hlimited | rfl
  · exact Or.inl (hlimited.bind next)
  · cases result with
    | error error => exact Or.inr rfl
    | ok expr => exact hnext expr

/-- A step is steady if it is so on all tokens that weigh less. -/
theorem step_steady {limits : Limits} {inside side inside' side' : List Token → Except ParseError Expr}
    {tokens : List Token}
    (hinside : ∀ inner, Token.totalWeight inner < Token.totalWeight tokens →
      Steady limits (inside inner) (inside' inner))
    (hside : ∀ part, Token.totalWeight part < Token.totalWeight tokens →
      Steady limits (side part) (side' part)) :
    Steady limits (step inside side tokens) (step inside' side' tokens) := by
  match tokens with
  | [] => exact Or.inr rfl
  | [.group group] =>
      simp only [step]
      split
      · exact Or.inr rfl
      · rename_i inner hscan
        apply hinside
        simpa [Token.totalWeight] using Token.totalWeight_scan_stripOuter hscan
  | [.number literal] => exact Or.inr rfl
  | [.operator op] => exact Or.inr rfl
  | first :: second :: rest =>
      simp only [step]
      split
      · exact Or.inr rfl
      · rename_i split hsplit
        obtain ⟨hleft, hright⟩ := Split.totalWeight_lt hsplit
        apply (hside _ hleft).bind
        intro left
        apply (hside _ hright).bind
        intro right
        exact Or.inr rfl

/-- Within larger limits the builder gives the same result, unless one of the limits gave it. -/
theorem buildAt_steady {limits larger : Limits} (hnesting : limits.nesting ≤ larger.nesting)
    (hchain : limits.chain ≤ larger.chain) (nesting splits : Nat) (tokens : List Token) :
    Steady limits (buildAt limits nesting splits tokens) (buildAt larger nesting splits tokens) := by
  rcases Nat.lt_or_ge limits.nesting nesting with hdeep | hdeep
  · exact Or.inl (Or.inl (buildAt_nestedTooDeeply splits tokens hdeep))
  rcases Nat.lt_or_ge limits.chain splits with hlong | hlong
  · exact Or.inl (Or.inr (buildAt_chainedTooLong tokens hdeep hlong))
  -- Both runs take the same step, and what the step builds weighs less.
  rw [buildAt_eq_step tokens hdeep hlong,
    buildAt_eq_step tokens (Nat.le_trans hdeep hnesting) (Nat.le_trans hlong hchain)]
  apply step_steady
  · intro inner _
    exact buildAt_steady hnesting hchain (nesting + 1) splits inner
  · intro part _
    exact buildAt_steady hnesting hchain nesting (splits + 1) part
termination_by Token.totalWeight tokens

/-- Raising the limits changes no answer but the errors of the limits: any other result of building
    tokens or of reading a text, be it an expression or an error, is the same within larger limits. -/
theorem steady_of_le {limits larger : Limits} (hnesting : limits.nesting ≤ larger.nesting)
    (hchain : limits.chain ≤ larger.chain) :
    (∀ tokens, Steady limits (build limits tokens) (build larger tokens)) ∧
      ∀ text, Steady limits (parse limits text) (parse larger text) := by
  have hbuild (tokens : List Token) : Steady limits (build limits tokens) (build larger tokens) :=
    buildAt_steady hnesting hchain 0 0 tokens
  refine ⟨hbuild, ?_⟩
  intro text
  unfold parse
  split
  · exact Or.inr rfl
  · exact hbuild _

/-- The missing operator in `(2 3)` is found with room for one bracket and one operator, and with more
    room the answer stays. -/
theorem steady_missing_operator :
    1 ≤ Limits.nesting {} ∧ 1 ≤ Limits.chain {} ∧
      parse ⟨1, 1⟩ "1+(2 3)".toList = .error (.noOperator "2 3".toList) ∧
      parse {} "1+(2 3)".toList = .error (.noOperator "2 3".toList) := by
  have hparse : parse ⟨1, 1⟩ "1+(2 3)".toList = .error (.noOperator "2 3".toList) := by decide +kernel
  have hsteady := (@steady_of_le ⟨1, 1⟩ {} (by decide) (by decide)).2 "1+(2 3)".toList
  rw [hparse] at hsteady
  rcases hsteady with hlimited | heq
  · rcases hlimited with h | h
    · cases h
    · cases h
  · exact ⟨by decide, by decide, hparse, heq.symm⟩

end Parse

end Calculator
