/-
Module: Calculator.Proofs.Defect
Layer: Proofs
Purpose: Errors of reading name a real defect. The builder finds an error in a slice of some tokens,
  and the tokens were scanned from the text or from the inside of a group. Since a slice ends where its
  tokens end or at an operator, what is wrong with the slice is wrong with the tokens: an operand is
  missing at an end or between two operators, operands follow one another, an operator stands alone.
  So apart from the errors of the limits, every error is the failed scan of a fragment of the text or
  describes the tokens of one.
Imports: Calculator.Proofs.Limits, Calculator.Proofs.Slice
Trusted boundary: none (fully proved)
Main exports: Parse.Fragment, Parse.Defect, Parse.Reports, Parse.reports_of_buildAt,
  Parse.reports_of_parse_error
-/
import Calculator.Proofs.Limits
import Calculator.Proofs.Slice

namespace Calculator

namespace Parse

/-- The fragments of a text are the text itself and, of every fragment that the scanner reads, what
    stands inside its groups. -/
inductive Fragment (text : Text) : Text → Prop where
  | self : Fragment text text
  | inside {fragment group : Text} {tokens : List Token} :
      Fragment text fragment → Token.scan fragment = .ok tokens → .group group ∈ tokens →
        Fragment text (Bracket.stripOuter group)

/-- A list of tokens has a defect, and this is the error for it. -/
inductive Defect : List Token → ParseError → Prop where
  /-- Two or more operands in a row, all there are between the operators around them. -/
  | operands {before run behind : List Token} :
      Flanked before behind → 2 ≤ run.length → (∀ op, .operator op ∉ run) →
        Defect (before ++ (run ++ behind)) (.noOperator (Token.format run))
  /-- An operator with no operand next to it. -/
  | lonely {before behind : List Token} {op : Operator} :
      Flanked before behind → Defect (before ++ .operator op :: behind) (.noOperator [op.symbol])
  /-- No token at all. -/
  | nothing : Defect [] .empty
  /-- No operand before the first operator. -/
  | leading {behind : List Token} {op : Operator} : Defect (.operator op :: behind) .empty
  /-- No operand behind the last operator. -/
  | trailing {before : List Token} {op : Operator} : Defect (before ++ [.operator op]) .empty
  /-- No operand between two operators. -/
  | adjacent {before behind : List Token} {op op' : Operator} :
      Defect (before ++ .operator op :: .operator op' :: behind) .empty
  /-- A literal that denotes no finite number. -/
  | literal {tokens : List Token} {literal : Text} :
      .number literal ∈ tokens → Numeral.read? literal = none → Defect tokens (.badNumber literal)

/-- The error is that of scanning the fragment, or reports a defect of the tokens of the fragment. -/
def Reports (fragment : Text) (error : ParseError) : Prop :=
  (∃ cause, error = .scan cause ∧ Token.scan fragment = .error cause) ∨
    ∃ tokens, Token.scan fragment = .ok tokens ∧ Defect tokens error

/-! ### Defects of slices -/

namespace Slice

variable {tokens before part behind : List Token}

/-- Where nothing is left between two ends, an operand is missing. -/
theorem defect_nil (h : Slice tokens before [] behind) : Defect tokens .empty := by
  obtain ⟨hbefore, hbehind⟩ := h.flanked
  rw [← h.tokens_eq, List.nil_append]
  rcases List.eq_nil_or_concat before with rfl | ⟨before, last, rfl⟩
  · cases behind with
    | nil => exact .nothing
    | cons first behind =>
        obtain ⟨op, rfl⟩ := hbehind first rfl
        exact .leading
  · rw [List.concat_eq_append] at hbefore ⊢
    obtain ⟨op, rfl⟩ := hbefore last (by simp)
    cases behind with
    | nil =>
        rw [List.append_nil]
        exact .trailing
    | cons first behind =>
        obtain ⟨op', rfl⟩ := hbehind first rfl
        rw [List.append_assoc]
        exact .adjacent

/-- An operator without operands is a defect, wherever it stands. -/
theorem defect_operator {op : Operator} (h : Slice tokens before [.operator op] behind) :
    Defect tokens (.noOperator [op.symbol]) := by
  rw [← h.tokens_eq]
  exact .lonely h.flanked

/-- Operands without an operator between them are a defect, wherever they stand. -/
theorem defect_operands (h : Slice tokens before part behind) (hlength : 2 ≤ part.length)
    (hsplit : Split.loosest? part = none) : Defect tokens (.noOperator (Token.format part)) := by
  rw [← h.tokens_eq]
  refine .operands h.flanked hlength ?_
  intro op hop
  obtain ⟨split, hfound⟩ := Split.loosest?_isSome_of_mem hop
  rw [hsplit] at hfound
  cases hfound

end Slice

/-- Only lists of no token or of one are not split. -/
theorem two_le_length {tokens : List Token} (hnil : tokens = [] → False)
    (hgroup : ∀ group, tokens = [.group group] → False)
    (hnumber : ∀ literal, tokens = [.number literal] → False)
    (hoperator : ∀ op, tokens = [.operator op] → False) : 2 ≤ tokens.length := by
  match tokens with
  | [] => exact absurd rfl hnil
  | [.group group] => exact absurd rfl (hgroup group)
  | [.number literal] => exact absurd rfl (hnumber literal)
  | [.operator op] => exact absurd rfl (hoperator op)
  | _ :: _ :: rest => exact Nat.le_add_left 2 rest.length

/-! ### Errors of the builder -/

/-- Where the builder fails on a slice of the tokens of a fragment, a limit is exceeded or the error
    reports a defect of a fragment. -/
theorem reports_of_buildAt {limits : Limits} {nesting splits : Nat} {text fragment : Text}
    {tokens before part behind : List Token} {error : ParseError} (hfragment : Fragment text fragment)
    (hscan : Token.scan fragment = .ok tokens) (hslice : Slice tokens before part behind)
    (h : buildAt limits nesting splits part = .error error) :
    Limited limits (.error error) ∨ ∃ fragment, Fragment text fragment ∧ Reports fragment error := by
  fun_induction buildAt limits nesting splits part generalizing fragment tokens before behind with
  | case1 =>
      cases h
      exact Or.inl (Or.inl rfl)
  | case2 =>
      cases h
      exact Or.inl (Or.inr rfl)
  | case3 =>
      cases h
      exact Or.inr ⟨fragment, hfragment, Or.inr ⟨tokens, hscan, hslice.defect_nil⟩⟩
  | case4 nesting splits _ _ group cause hinner =>
      cases h
      have hinside := hfragment.inside hscan (hslice.mem_tokens List.mem_cons_self)
      exact Or.inr ⟨_, hinside, Or.inl ⟨cause, rfl, hinner⟩⟩
  | case5 nesting splits _ _ group inner hinner ih =>
      exact ih (hfragment.inside hscan (hslice.mem_tokens List.mem_cons_self)) hinner .whole h
  | case6 => cases h
  | case7 nesting splits _ _ literal hread =>
      cases h
      have hdefect := Defect.literal (hslice.mem_tokens List.mem_cons_self) hread
      exact Or.inr ⟨fragment, hfragment, Or.inr ⟨tokens, hscan, hdefect⟩⟩
  | case8 =>
      cases h
      exact Or.inr ⟨fragment, hfragment, Or.inr ⟨tokens, hscan, hslice.defect_operator⟩⟩
  | case9 nesting splits _ _ part hnil hgroup hnumber hoperator hnone =>
      cases h
      have hlength := two_le_length hnil hgroup hnumber hoperator
      have hdefect := hslice.defect_operands hlength hnone
      exact Or.inr ⟨fragment, hfragment, Or.inr ⟨tokens, hscan, hdefect⟩⟩
  | case10 nesting splits _ _ part hnil hgroup hnumber hoperator split hsplit error' hleft ihleft =>
      cases h
      have hlength := two_le_length hnil hgroup hnumber hoperator
      exact ihleft hfragment hscan (hslice.left hlength hsplit) hleft
  | case11 nesting splits _ _ part hnil hgroup hnumber hoperator split hsplit left hleft error' hright
      ihleft ihright =>
      cases h
      have hlength := two_le_length hnil hgroup hnumber hoperator
      exact ihright hfragment hscan (hslice.right hlength hsplit) hright
  | case12 => cases h

/-- Every error of reading a text is the error of a limit, or it is found in a fragment of the text:
    the fragment is not scanned, for this very reason, or its tokens have the defect. -/
theorem reports_of_parse_error {limits : Limits} {text : Text} {error : ParseError}
    (h : parse limits text = .error error) :
    Limited limits (.error error) ∨ ∃ fragment, Fragment text fragment ∧ Reports fragment error := by
  unfold parse at h
  split at h
  · rename_i cause hscan
    cases h
    exact Or.inr ⟨text, .self, Or.inl ⟨cause, rfl, hscan⟩⟩
  · rename_i tokens hscan
    exact reports_of_buildAt .self hscan .whole h

/-- The operands in a row are those of the inner group, not of the text or of the outer one. -/
theorem reports_operands :
    parse {} "1*(2+(3 4))".toList = .error (.noOperator "3 4".toList) ∧
      ∃ fragment, Fragment "1*(2+(3 4))".toList fragment ∧
        Reports fragment (.noOperator "3 4".toList) := by
  have hparse : parse {} "1*(2+(3 4))".toList = .error (.noOperator "3 4".toList) := by decide +kernel
  rcases reports_of_parse_error hparse with hlimited | hreports
  · rcases hlimited with h | h
    · cases h
    · cases h
  · exact ⟨hparse, hreports⟩

end Parse

end Calculator
