/-
Module: Calculator.Proofs.Calls
Layer: Proofs
Purpose: The calls that the builder makes, whatever the limits are. A call opens a group or builds either
  side of a split, and it asks for nothing else: its answer is decided by the answers to these calls.
  The calls get lighter, so they end even if no limit stops them. A split leaves one operator less to
  the tokens on its sides, and a group that the scanner cut off has one bracket less inside; only the
  first group on a path may lack brackets. So the counts of groups and of operators around a call are
  bounded by the brackets and the operators that stand in the tokens, which memory holds, and they
  never run over.
Imports: Calculator.Proofs.Limits, Mathlib.Logic.Relation
Trusted boundary: none (fully proved)
Main exports: Parse.Call, Parse.Call.Makes, Parse.Call.wellFounded_makes, Parse.Call.run_eq_answer,
  Token.Spells.totalOperators_le, Parse.Call.Within, Parse.Call.Makes.within, Parse.calls_bounded
-/
import Calculator.Proofs.Limits
import Mathlib.Logic.Relation

namespace Calculator

open Relation (ReflTransGen)

/-! ### What tokens hold -/

namespace Token

/-- How many brackets a group opens. -/
def opened : Token → Nat
  | group text => text.count '('
  | _ => 0

/-- The largest number of brackets that a group among the tokens opens. -/
def mostOpened : List Token → Nat
  | [] => 0
  | token :: tokens => max token.opened (mostOpened tokens)

/-- How many operators a token is or holds: a group holds those among its characters. -/
def operatorCount : Token → Nat
  | operator _ => 1
  | group text => text.countP fun c => (Operator.ofSymbol? c).isSome
  | number _ => 0

/-- How many operators the tokens are and hold. -/
def totalOperators : List Token → Nat
  | [] => 0
  | token :: tokens => token.operatorCount + totalOperators tokens

/-- How many tokens there are, and how many characters stand in them. -/
def size : List Token → Nat
  | [] => 0
  | token :: tokens => token.text.length + 1 + size tokens

@[simp] theorem totalOperators_append (left right : List Token) :
    totalOperators (left ++ right) = totalOperators left + totalOperators right := by
  induction left with
  | nil => exact (Nat.zero_add _).symm
  | cons token left ih => rw [List.cons_append, totalOperators, totalOperators, ih, Nat.add_assoc]

/-- A bound on all groups is a bound on the one with most brackets. -/
theorem mostOpened_le_iff {tokens : List Token} {m : Nat} :
    mostOpened tokens ≤ m ↔ ∀ token ∈ tokens, token.opened ≤ m := by
  induction tokens with
  | nil => simp [mostOpened]
  | cons token tokens ih => rw [mostOpened, Nat.max_le, ih, List.forall_mem_cons]

theorem opened_le_mostOpened {token : Token} {tokens : List Token} (h : token ∈ tokens) :
    token.opened ≤ mostOpened tokens :=
  mostOpened_le_iff.1 (Nat.le_refl _) token h

/-- A token opens brackets only where its text has them. -/
theorem opened_le_count (token : Token) : token.opened ≤ token.text.count '(' := by
  cases token with
  | group text => exact Nat.le_refl _
  | number literal => exact Nat.zero_le _
  | operator op => exact Nat.zero_le _

/-- A token has an operator only where its text has one. -/
theorem operatorCount_le_countP (token : Token) :
    token.operatorCount ≤ token.text.countP fun c => (Operator.ofSymbol? c).isSome := by
  cases token with
  | group text => exact Nat.le_refl _
  | number literal => exact Nat.zero_le _
  | operator op => simp [operatorCount, text]

/-- All operators of the tokens stand in a text that spells them. -/
theorem Spells.totalOperators_le {text : Text} {tokens : List Token} (h : Spells text tokens) :
    totalOperators tokens ≤ text.countP fun c => (Operator.ofSymbol? c).isSome := by
  induction h with
  | nil => exact Nat.zero_le _
  | @cons gap rest token tokens _ _ _ _ ih =>
      have htoken := token.operatorCount_le_countP
      rw [totalOperators, List.countP_append, List.countP_append]
      omega

/-- The groups of a text open brackets only where the text has them. -/
theorem Spells.mostOpened_le {text : Text} {tokens : List Token} (h : Spells text tokens) :
    mostOpened tokens ≤ text.count '(' := by
  induction h with
  | nil => exact Nat.zero_le _
  | @cons gap rest token tokens _ _ _ _ ih =>
      have htoken := token.opened_le_count
      rw [mostOpened, List.count_append, List.count_append]
      omega

/-- Every operator takes up room. -/
theorem totalOperators_le_size (tokens : List Token) : totalOperators tokens ≤ size tokens := by
  induction tokens with
  | nil => exact Nat.le_refl 0
  | cons token tokens ih =>
      have htoken := token.operatorCount_le_countP.trans List.countP_le_length
      rw [size, totalOperators]
      omega

/-- A group is a token besides the brackets in it. -/
theorem mostOpened_le_size (tokens : List Token) : mostOpened tokens ≤ size tokens - 1 := by
  induction tokens with
  | nil => exact Nat.le_refl 0
  | cons token tokens ih =>
      have htoken := token.opened_le_count.trans List.count_le_length
      rw [size, mostOpened]
      omega

end Token

namespace Split

/-- The operator stands at the index, and the sides are the tokens before and behind it. -/
theorem slices_of_loosest? {tokens : List Token} {split : Split} (h : loosest? tokens = some split) :
    split.index < tokens.length ∧ tokens[split.index]? = some (.operator split.op) ∧
      split.left = tokens.take split.index ∧ split.right = tokens.drop (split.index + 1) := by
  rw [← tokens_of_loosest? h]
  simp [Split.tokens, index, List.drop_append]

/-- A split takes one operator out and leaves the others on its two sides. -/
theorem totalOperators_eq {tokens : List Token} {split : Split} (h : loosest? tokens = some split) :
    Token.totalOperators tokens =
      Token.totalOperators split.left + 1 + Token.totalOperators split.right := by
  rw [← tokens_of_loosest? h]
  simp [Token.totalOperators, Split.tokens, Token.operatorCount, Nat.add_assoc]

end Split

/-! ### Calls -/

namespace Parse

/-- A call of the builder: tokens inside some groups and below some operators. -/
structure Call where
  nesting : Nat
  splits : Nat
  tokens : List Token

namespace Call

/-- The first call makes the second one in turn, if no limit stops it. -/
inductive Makes : Call → Call → Prop where
  | group {nesting splits : Nat} {group : Text} {inner : List Token} :
      Token.scan (Bracket.stripOuter group) = .ok inner →
        Makes ⟨nesting, splits, [.group group]⟩ ⟨nesting + 1, splits, inner⟩
  | left {nesting splits : Nat} {tokens : List Token} {split : Split} :
      2 ≤ tokens.length → Split.loosest? tokens = some split →
        Makes ⟨nesting, splits, tokens⟩ ⟨nesting, splits + 1, split.left⟩
  | right {nesting splits : Nat} {tokens : List Token} {split : Split} :
      2 ≤ tokens.length → Split.loosest? tokens = some split →
        Makes ⟨nesting, splits, tokens⟩ ⟨nesting, splits + 1, split.right⟩

/-- What the builder answers to a call. -/
def answer (limits : Limits) (call : Call) : Except ParseError Expr :=
  buildAt limits call.nesting call.splits call.tokens

/-- What the builder does in a call, where `ask` answers the calls that it makes in turn. -/
def run (limits : Limits) (ask : Call → Except ParseError Expr) (call : Call) :
    Except ParseError Expr :=
  if limits.nesting < call.nesting then .error (.nestedTooDeeply limits.nesting)
  else if limits.chain < call.splits then .error (.chainedTooLong limits.chain)
  else
    step (fun inner => ask ⟨call.nesting + 1, call.splits, inner⟩)
      (fun part => ask ⟨call.nesting, call.splits + 1, part⟩) call.tokens

/-- A call works on tokens of less weight than those of its caller. -/
theorem Makes.totalWeight_lt {call callee : Call} (h : call.Makes callee) :
    Token.totalWeight callee.tokens < Token.totalWeight call.tokens := by
  cases h with
  | group hscan => simpa [Token.totalWeight] using Token.totalWeight_scan_stripOuter hscan
  | left _ hsplit => exact (Split.totalWeight_lt hsplit).1
  | right _ hsplit => exact (Split.totalWeight_lt hsplit).2

/-- No calls go on for ever. -/
theorem wellFounded_makes : WellFounded fun callee call : Call => call.Makes callee :=
  Subrelation.wf Makes.totalWeight_lt (measure fun call : Call => Token.totalWeight call.tokens).wf

/-- The answer to a call is decided by the answers to the calls that it makes. -/
theorem run_eq_answer {limits : Limits} {ask : Call → Except ParseError Expr} {call : Call}
    (h : ∀ callee, call.Makes callee → ask callee = callee.answer limits) :
    call.run limits ask = call.answer limits := by
  obtain ⟨nesting, splits, tokens⟩ := call
  unfold run answer
  split
  · rename_i hdeep
    exact (buildAt_nestedTooDeeply splits tokens hdeep).symm
  · rename_i hdeep
    split
    · rename_i hlong
      exact (buildAt_chainedTooLong tokens (Nat.not_lt.1 hdeep) hlong).symm
    · rename_i hlong
      rw [buildAt_eq_step tokens (Nat.not_lt.1 hdeep) (Nat.not_lt.1 hlong)]
      match tokens with
      | [] => rfl
      | [.number literal] => rfl
      | [.operator op] => rfl
      | [.group group] =>
          simp only [step]
          split
          · rfl
          · rename_i inner hscan
            exact h _ (.group hscan)
      | first :: second :: rest =>
          have htwo : 2 ≤ (first :: second :: rest).length := Nat.le_add_left 2 rest.length
          simp only [step]
          split
          · rfl
          · rename_i split hsplit
            rw [h _ (.left htwo hsplit), h _ (.right htwo hsplit)]
            rfl

/-! ### Counts along the calls -/

/-- What holds of every call that building the tokens leads to: an operator above it is an operator less
    in it, and so is a bracket once the first group is open. -/
structure Within (tokens : List Token) (call : Call) : Prop where
  splits : call.splits + Token.totalOperators call.tokens ≤ Token.totalOperators tokens
  nesting : call.nesting = 0 ∧ Token.mostOpened call.tokens ≤ Token.mostOpened tokens ∨
    (∀ token ∈ call.tokens, token.WellFormed) ∧
      call.nesting + Token.mostOpened call.tokens ≤ 1 + Token.mostOpened tokens

/-- The operators that a call has split off and those that it still has are never more than its
    caller's. -/
theorem Makes.splits_le {call callee : Call} (h : call.Makes callee) :
    callee.splits + Token.totalOperators callee.tokens ≤
      call.splits + Token.totalOperators call.tokens := by
  cases h with
  | @group nesting splits group inner hscan =>
      have hinner := (Token.scan_eq_ok_iff_spells.1 hscan).totalOperators_le
      have hstrip : _ ≤ group.countP fun c => (Operator.ofSymbol? c).isSome :=
        (Bracket.stripOuter_sublist group).countP_le
      have hgroup : Token.totalOperators [.group group] =
          group.countP fun c => (Operator.ofSymbol? c).isSome := Nat.add_zero _
      simp only [hgroup]
      omega
  | left _ hsplit =>
      have := Split.totalOperators_eq hsplit
      simp only
      omega
  | right _ hsplit =>
      have := Split.totalOperators_eq hsplit
      simp only
      omega

/-- A side of a split stays within the bounds if its call does. -/
theorem Within.of_side {tokens side : List Token} {nesting splits : Nat} {call : Call}
    (h : call.Within tokens) (hside : ∀ token ∈ side, token ∈ call.tokens)
    (hsplits : splits + Token.totalOperators side ≤ call.splits + Token.totalOperators call.tokens)
    (hnesting : nesting = call.nesting) : Within tokens ⟨nesting, splits, side⟩ := by
  have hmost : Token.mostOpened side ≤ Token.mostOpened call.tokens :=
    Token.mostOpened_le_iff.2 fun token htoken => Token.opened_le_mostOpened (hside token htoken)
  subst hnesting
  refine ⟨hsplits.trans h.splits, ?_⟩
  rcases h.nesting with ⟨hzero, hle⟩ | ⟨hwell, hle⟩
  · exact Or.inl ⟨hzero, hmost.trans hle⟩
  · exact Or.inr ⟨fun token htoken => hwell token (hside token htoken), by simp only; omega⟩

/-- A step keeps the counts within their bounds. -/
theorem Makes.within {tokens : List Token} {call callee : Call} (h : call.Makes callee)
    (hcall : call.Within tokens) : callee.Within tokens := by
  have hsplits := h.splits_le
  cases h with
  | @group nesting splits group inner hscan =>
      have hspells := Token.scan_eq_ok_iff_spells.1 hscan
      have hinner := hspells.mostOpened_le
      have hgroup : Token.mostOpened [.group group] = group.count '(' := Nat.max_zero _
      refine ⟨hsplits.trans hcall.splits, Or.inr ⟨hspells.wellFormed, ?_⟩⟩
      rcases hcall.nesting with ⟨hzero, hle⟩ | ⟨hwell, hle⟩
      · -- The first group on the path may have no brackets to lose.
        have hstrip := (Bracket.stripOuter_sublist group).count_le '('
        simp only at hzero
        simp only [hgroup] at hle ⊢
        omega
      · obtain ⟨w, -, rfl⟩ := hwell _ List.mem_cons_self
        rw [Bracket.stripOuter_enclose] at hinner
        have hcount : (Bracket.enclose w).count '(' = w.count '(' + 1 := by simp [Bracket.enclose]
        simp only [hgroup, hcount] at hle ⊢
        omega
  | left _ hsplit =>
      exact hcall.of_side (Split.forall_mem hsplit fun _ hmem => hmem).1 hsplits rfl
  | right _ hsplit =>
      exact hcall.of_side (Split.forall_mem hsplit fun _ hmem => hmem).2 hsplits rfl

/-- By induction on the chain of calls, every call stays within the bounds of the first one. -/
theorem within_of_makes {tokens : List Token} {call : Call}
    (h : ReflTransGen Makes ⟨0, 0, tokens⟩ call) : call.Within tokens := by
  induction h with
  | refl => exact ⟨by simp, Or.inl ⟨rfl, Nat.le_refl _⟩⟩
  | tail _ hstep ih => exact hstep.within ih

end Call

/-- Building tokens ends without the limits, whatever the tokens hold: the calls that a call makes, by
    which its answer is decided, are well founded. In every call that building the tokens leads to, at
    most one group more is open than brackets stand in one group among the tokens, no more operators
    stand above than there are in the tokens, and the index of a split lies within the tokens that are
    split. So neither count exceeds a 64-bit word as long as the tokens and their characters can be
    counted in one. -/
theorem calls_bounded (tokens : List Token) :
    (∀ limits, build limits tokens = Call.answer limits ⟨0, 0, tokens⟩) ∧
      (∀ limits ask call,
        (∀ callee, Call.Makes call callee → ask callee = callee.answer limits) →
          call.run limits ask = call.answer limits) ∧
      (WellFounded fun callee call : Call => call.Makes callee) ∧
      ∀ call, ReflTransGen Call.Makes ⟨0, 0, tokens⟩ call →
        call.nesting ≤ 1 + Token.mostOpened tokens ∧
        call.splits ≤ Token.totalOperators tokens ∧
        (∀ split, Split.loosest? call.tokens = some split →
          split.index < call.tokens.length ∧
            call.tokens[split.index]? = some (.operator split.op) ∧
            split.left = call.tokens.take split.index ∧
            split.right = call.tokens.drop (split.index + 1)) ∧
        (Token.size tokens < UInt64.size →
          call.nesting < UInt64.size ∧ call.splits < UInt64.size) := by
  refine ⟨fun limits => rfl, fun limits ask call => Call.run_eq_answer, Call.wellFounded_makes, ?_⟩
  intro call hcall
  obtain ⟨hsplits, hnesting⟩ := Call.within_of_makes hcall
  have hdeep : call.nesting ≤ 1 + Token.mostOpened tokens := by omega
  have hlong : call.splits ≤ Token.totalOperators tokens := by omega
  refine ⟨hdeep, hlong, fun split => Split.slices_of_loosest?, fun hsize => ?_⟩
  have hoperators := Token.totalOperators_le_size tokens
  have hopened := Token.mostOpened_le_size tokens
  have hword : 1 < UInt64.size := by decide
  constructor
  · omega
  · omega

/-- The group `1-(2)` has no brackets around it, so two groups are open where its `2` is built: one more
    than it has brackets. -/
theorem calls_bounded_bare_group :
    ∃ call, ReflTransGen Call.Makes ⟨0, 0, [.group "1-(2)".toList]⟩ call ∧
      call.nesting = 1 + Token.mostOpened [.group "1-(2)".toList] ∧
      call.splits = Token.totalOperators [.group "1-(2)".toList] ∧
      Token.size [.group "1-(2)".toList] < UInt64.size ∧
      call.nesting < UInt64.size ∧ call.splits < UInt64.size ∧
      call.run {} (Call.answer {}) = call.answer {} := by
  have hbare : Token.scan (Bracket.stripOuter "1-(2)".toList) =
      .ok [.number ['1'], .operator .sub, .group "(2)".toList] := by decide +kernel
  have hinner : Token.scan (Bracket.stripOuter "(2)".toList) = .ok [.number ['2']] := by decide +kernel
  have hsplit : Split.loosest? [.number ['1'], .operator .sub, .group "(2)".toList] =
      some ⟨[.number ['1']], .sub, [.group "(2)".toList]⟩ := by decide +kernel
  have hcall : ReflTransGen Call.Makes ⟨0, 0, [.group "1-(2)".toList]⟩ ⟨2, 1, [.number ['2']]⟩ :=
    ((ReflTransGen.single (.group hbare)).tail (.right (by decide) hsplit)).tail (.group hinner)
  obtain ⟨-, hrun, -, hbound⟩ := calls_bounded [.group "1-(2)".toList]
  have hsize : Token.size [.group "1-(2)".toList] < UInt64.size := by decide
  obtain ⟨hnesting, hsplits⟩ := (hbound _ hcall).2.2.2 hsize
  exact ⟨_, hcall, by decide, by decide, hsize, hnesting, hsplits, hrun _ _ _ fun _ _ => rfl⟩

end Parse

end Calculator
