/-
Module: Calculator.Proofs.Slice
Layer: Proofs
Purpose: What the builder receives while it splits a list of tokens: the list itself, and either side
  of the split of each slice that has more than one token. A slice ends where the list does or at an
  operator. If the list builds an expression, a slice builds a part of it, and whatever builds the same
  part without an operator that the slice lacks can stand in its place: above the slice, every split
  stays where it was. The slice written out in brackets is such a replacement, so brackets which the
  ranks imply change nothing but the nesting.
Imports: Calculator.Proofs.Precedence
Trusted boundary: none (fully proved)
Main exports: Parse.Slice, Parse.Flanked, Parse.Slice.tokens_eq, Parse.Slice.flanked,
  Parse.Slice.exists_builds, Token.spells_format, Parse.Slice.build_regrouped
-/
import Calculator.Proofs.Precedence

namespace Calculator

namespace Parse

/-- While it splits the tokens, the builder receives `part`; `before` and `behind` stand around it. -/
inductive Slice (tokens : List Token) : List Token → List Token → List Token → Prop where
  | whole : Slice tokens [] tokens []
  | left {before part behind : List Token} {split : Split} :
      Slice tokens before part behind → 2 ≤ part.length → Split.loosest? part = some split →
        Slice tokens before split.left (.operator split.op :: (split.right ++ behind))
  | right {before part behind : List Token} {split : Split} :
      Slice tokens before part behind → 2 ≤ part.length → Split.loosest? part = some split →
        Slice tokens (before ++ (split.left ++ [.operator split.op])) split.right behind

/-- No operand stands last in `before` or first in `behind`. -/
def Flanked (before behind : List Token) : Prop :=
  (∀ token ∈ before.getLast?, ∃ op, token = .operator op) ∧
    ∀ token ∈ behind.head?, ∃ op, token = .operator op

namespace Slice

variable {tokens before part behind : List Token}

/-! ### Where slices end -/

/-- A slice and what stands around it make up the tokens. -/
theorem tokens_eq (h : Slice tokens before part behind) : before ++ (part ++ behind) = tokens := by
  induction h with
  | whole => simp
  | left _ _ hsplit ih =>
      rw [← ih, ← Split.tokens_of_loosest? hsplit]
      simp [Split.tokens]
  | right _ _ hsplit ih =>
      rw [← ih, ← Split.tokens_of_loosest? hsplit]
      simp [Split.tokens]

theorem mem_tokens {token : Token} (h : Slice tokens before part behind) (hmem : token ∈ part) :
    token ∈ tokens := by
  rw [← h.tokens_eq]
  exact List.mem_append_right _ (List.mem_append_left _ hmem)

/-- A slice begins at the start of the tokens or behind an operator, and it ends likewise. -/
theorem flanked (h : Slice tokens before part behind) : Flanked before behind := by
  induction h with
  | whole => exact ⟨by simp, by simp⟩
  | @left before part behind split _ _ _ ih =>
      refine ⟨ih.1, ?_⟩
      intro token hfirst
      cases hfirst
      exact ⟨split.op, rfl⟩
  | @right before part behind split _ _ _ ih =>
      refine ⟨?_, ih.2⟩
      intro token hlast
      simp only [List.getLast?_append, List.getLast?_singleton, Option.some_or] at hlast
      cases hlast
      exact ⟨split.op, rfl⟩

end Slice

/-! ### Slices of what is built -/

/-- Tokens that have a split are built from both sides of it. -/
theorem Builds.exists_sides {height : Nat} {tokens : List Token} {expr : Expr} {split : Split}
    (h : Builds height tokens expr) (hsplit : Split.loosest? tokens = some split) :
    ∃ i j left right, Builds i split.left left ∧ Builds j split.right right ∧ height = max i j ∧
      expr = .binary left split.op right := by
  cases h with
  | number => cases hsplit
  | group => cases hsplit
  | split hfound hleft hright =>
      rw [hfound] at hsplit
      cases hsplit
      exact ⟨_, _, _, _, hleft, hright, rfl, rfl⟩

/-- Every operator of the first list stands in the second one, too. -/
def OperatorsIn (tokens others : List Token) : Prop :=
  ∀ op, Token.operator op ∈ tokens → Token.operator op ∈ others

/-- Sides without any further operator leave the split where it is: what they hold is at most as loose
    as what they replace. -/
theorem loosest?_exchange {tokens left right : List Token} {split : Split}
    (hsplit : Split.loosest? tokens = some split) (hleft : OperatorsIn left split.left)
    (hright : OperatorsIn right split.right) :
    Split.loosest? (left ++ .operator split.op :: right) = some ⟨left, split.op, right⟩ ∧
      OperatorsIn (left ++ .operator split.op :: right) tokens := by
  obtain ⟨htokens, hbefore, hbehind⟩ := Split.loosest?_eq_some_iff.1 hsplit
  constructor
  · apply Split.loosest?_eq_some_iff.2
    exact ⟨rfl, fun op hop => hbefore op (hleft op hop), fun op hop => hbehind op (hright op hop)⟩
  · intro op hop
    rw [← htokens]
    rcases List.mem_append.1 hop with hop | hop
    · exact List.mem_append_left _ (hleft op hop)
    · apply List.mem_append_right
      rcases List.mem_cons.1 hop with hop | hop
      · rw [hop]
        exact List.mem_cons_self
      · exact List.mem_cons_of_mem _ (hright op hop)

/-- A slice of tokens that build an expression builds a part of it. Other tokens that build this part,
    without any further operator, can replace the slice. -/
theorem Slice.exists_builds {height : Nat} {tokens before part behind : List Token} {expr : Expr}
    (h : Slice tokens before part behind) (hbuilds : Builds height tokens expr) :
    ∃ i sub, Builds i part sub ∧ i ≤ height ∧
      ∀ j other, Builds j other sub → OperatorsIn other part →
        ∃ k, Builds k (before ++ (other ++ behind)) expr ∧ k ≤ max height j := by
  -- From the list down to the slice: a replacement of a side is one of the slice that was split.
  induction h with
  | whole =>
      refine ⟨height, expr, hbuilds, Nat.le_refl _, ?_⟩
      intro j other hother _
      exact ⟨j, by simpa using hother, Nat.le_max_right _ _⟩
  | @left before part behind split _ _ hsplit ih =>
      obtain ⟨i, sub, hpart, hi, hreplace⟩ := ih
      obtain ⟨l, r, left, right, hleft, hright, rfl, rfl⟩ := hpart.exists_sides hsplit
      refine ⟨l, left, hleft, by omega, ?_⟩
      intro j other hother hoperators
      obtain ⟨hfound, hin⟩ := loosest?_exchange hsplit hoperators fun _ hop => hop
      have hwhole := Builds.split hfound hother hright
      obtain ⟨k, hk, hle⟩ := hreplace _ _ hwhole hin
      refine ⟨k, ?_, by omega⟩
      simpa only [List.append_assoc, List.cons_append] using hk
  | @right before part behind split _ _ hsplit ih =>
      obtain ⟨i, sub, hpart, hi, hreplace⟩ := ih
      obtain ⟨l, r, left, right, hleft, hright, rfl, rfl⟩ := hpart.exists_sides hsplit
      refine ⟨r, right, hright, by omega, ?_⟩
      intro j other hother hoperators
      obtain ⟨hfound, hin⟩ := loosest?_exchange hsplit (fun _ hop => hop) hoperators
      have hwhole := Builds.split hfound hleft hother
      obtain ⟨k, hk, hle⟩ := hreplace _ _ hwhole hin
      refine ⟨k, ?_, by omega⟩
      simpa only [List.append_assoc, List.cons_append, List.nil_append] using hk

end Parse

/-! ### Slices in brackets -/

/-- Tokens as the scanner reads them are read back from the text that lists them. -/
theorem Token.spells_format {tokens : List Token} (h : ∀ token ∈ tokens, token.WellFormed) :
    Spells (format tokens) tokens := by
  induction tokens with
  | nil => exact .nil Text.blanks_nil
  | cons token tokens ih =>
      have htoken := h token List.mem_cons_self
      have hrest := ih fun t ht => h t (List.mem_cons_of_mem token ht)
      cases tokens with
      | nil =>
          have hsingle := Spells.single Text.blanks_nil htoken Text.blanks_nil
          rwa [List.append_nil] at hsingle
      | cons next more =>
          have hspace : Text.isBlank ' ' = true := by decide
          have hapart : token.Apart (' ' :: format (next :: more)) (next :: more) :=
            fun _ _ _ _ => ⟨' ', rfl, hspace⟩
          exact @Spells.cons [] _ _ _ Text.blanks_nil htoken hapart (hrest.blank hspace)

namespace Parse

/-- Brackets that the ranks imply can be written out: where tokens of a text build an expression, they
    still build it when a slice of them is put in brackets, with room for one more open bracket. -/
theorem Slice.build_regrouped {limits : Limits} {text : Text} {tokens before part behind : List Token}
    {t : Expr} (hscan : Token.scan text = .ok tokens) (hbuild : build limits tokens = .ok t)
    (hslice : Slice tokens before part behind) :
    build { limits with nesting := limits.nesting + 1 }
      (before ++ .group (Bracket.enclose (Token.format part)) :: behind) = .ok t := by
  obtain ⟨height, hbuilds, hheight, hdepth⟩ := build_eq_ok_iff.1 hbuild
  obtain ⟨i, sub, hpart, hi, hreplace⟩ := hslice.exists_builds hbuilds
  have hwell : ∀ token ∈ part, token.WellFormed := by
    intro token hmem
    exact (Token.scan_eq_ok_iff_spells.1 hscan).wellFormed _ (hslice.mem_tokens hmem)
  have hformat : Token.scan (Bracket.stripOuter (Bracket.enclose (Token.format part))) = .ok part := by
    rw [Bracket.stripOuter_enclose]
    exact Token.scan_eq_ok_iff_spells.2 (Token.spells_format hwell)
  -- The group has no operator of its own.
  have hoperators : OperatorsIn [.group (Bracket.enclose (Token.format part))] part := by
    intro op hop
    rw [List.mem_singleton] at hop
    cases hop
  obtain ⟨k, hk, hle⟩ := hreplace _ _ (.group hformat hpart) hoperators
  exact build_eq_ok_iff.2 ⟨k, hk, by simp only; omega, hdepth⟩

/-- In `1-2*3+4` the product is the left side of the sum, which is the right side of the difference. -/
theorem build_regrouped_product :
    ∃ tokens t, Token.scan "1-2*3+4".toList = .ok tokens ∧ build ⟨0, 3⟩ tokens = .ok t ∧
      Slice tokens [.number ['1'], .operator .sub] [.number ['2'], .operator .mul, .number ['3']]
        [.operator .add, .number ['4']] ∧
      build ⟨1, 3⟩ [.number ['1'], .operator .sub, .group "(2 * 3)".toList, .operator .add,
        .number ['4']] = .ok t := by
  have hscan : Token.scan "1-2*3+4".toList = .ok [.number ['1'], .operator .sub, .number ['2'],
      .operator .mul, .number ['3'], .operator .add, .number ['4']] := by decide +kernel
  have hbuild : build ⟨0, 3⟩ [.number ['1'], .operator .sub, .number ['2'], .operator .mul,
      .number ['3'], .operator .add, .number ['4']] =
        .ok (.binary (.number (.ofBits 0x3ff0000000000000)) .sub (.binary
          (.binary (.number (.ofBits 0x4000000000000000)) .mul (.number (.ofBits 0x4008000000000000)))
          .add (.number (.ofBits 0x4010000000000000)))) := by decide +kernel
  have hwhole := @Slice.whole [.number ['1'], .operator .sub, .number ['2'], .operator .mul,
    .number ['3'], .operator .add, .number ['4']]
  have hsum := hwhole.right (by decide) rfl
  have hproduct := hsum.left (by decide) rfl
  exact ⟨_, _, hscan, hbuild, hproduct, Slice.build_regrouped hscan hbuild hproduct⟩

end Parse

end Calculator
