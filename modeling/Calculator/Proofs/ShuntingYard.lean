/-
Module: Calculator.Proofs.ShuntingYard
Layer: Proofs
Purpose: A second reading of precedence, in one pass and without looking ahead. Operators wait on a
  stack for their right operand; a new operator first closes all that bind at least as tightly. The
  operators on the stack bind ever looser towards its bottom, and this is what makes the result an
  ordered layout. So the pass finds the ordered layout of every list in which operands and operators
  alternate, and since there is only one, it is the layout which splitting builds.
Imports: Calculator.Proofs.Precedence
Trusted boundary: none (fully proved)
Main exports: Parse.shuntingYard, Parse.shuntingYard_eq_some_iff, Parse.builds_of_alternates,
  Parse.build_eq_ok_iff_precedence
-/
import Calculator.Proofs.Precedence

namespace Calculator

namespace Parse

/-- The operand a token stands for, if it does. -/
def Operand.ofToken? : Token → Option Operand
  | .number literal => some (.number literal)
  | .group text => some (.group text)
  | .operator _ => none

@[simp] theorem Operand.ofToken?_token (x : Operand) : ofToken? x.token = some x := by
  cases x <;> rfl

/-- Only the token of an operand is taken for it. -/
theorem Operand.ofToken?_eq_some {token : Token} {x : Operand} (h : ofToken? token = some x) :
    token = x.token := by
  cases token <;> cases h <;> rfl

/-- An operator with its left operand, waiting for the right one. -/
structure Waiting where
  left : Layout
  op : Operator

/-- Closes every waiting operator, the last one first. -/
def finish (stack : List Waiting) (current : Layout) : Layout :=
  match stack with
  | [] => current
  | top :: stack => finish stack (.node top.left top.op current)

/-- Closes the waiting operators that bind at least as tightly as an operator of the given rank. -/
def reduce (rank : Nat) (stack : List Waiting) (current : Layout) : List Waiting × Layout :=
  match stack with
  | [] => ([], current)
  | top :: stack =>
      if top.op.rank ≤ rank then reduce rank stack (.node top.left top.op current)
      else (top :: stack, current)

/-- Reads on behind an operand. -/
def shunt (stack : List Waiting) (x : Operand) : List Token → Option Layout
  | [] => some (finish stack (.operand x))
  | .operator op :: token :: tokens =>
      match Operand.ofToken? token with
      | none => none
      | some y =>
          let (rest, left) := reduce op.rank stack (.operand x)
          shunt (⟨left, op⟩ :: rest) y tokens
  | _ => none

/-- The layout of a list of tokens, found in one pass from left to right. -/
def shuntingYard : List Token → Option Layout
  | [] => none
  | token :: tokens =>
      match Operand.ofToken? token with
      | none => none
      | some x => shunt [] x tokens

/-! ### What the stack keeps -/

/-- Every waiting operator has an ordered left operand that it may stand above, and binds tighter than
    all that waited before it. -/
def Stacked : List Waiting → Prop
  | [] => True
  | top :: stack =>
      top.left.Ordered ∧ (∀ o ∈ top.left.operators, o.rank ≤ top.op.rank) ∧
        (∀ v ∈ stack, top.op.rank < v.op.rank) ∧ Stacked stack

/-- The layout may become the right operand of the operator on top. -/
structure Ready (stack : List Waiting) (current : Layout) : Prop where
  stacked : Stacked stack
  ordered : current.Ordered
  tighter : ∀ o ∈ current.operators, ∀ v ∈ stack, o.rank < v.op.rank

theorem ready_operand {stack : List Waiting} (h : Stacked stack) (x : Operand) :
    Ready stack (.operand x) :=
  ⟨h, trivial, fun _ ho => absurd ho List.not_mem_nil⟩

/-- Closing the operator on top keeps the rest of the stack ready. -/
theorem Ready.close {top : Waiting} {stack : List Waiting} {current : Layout}
    (h : Ready (top :: stack) current) : Ready stack (.node top.left top.op current) := by
  obtain ⟨⟨hleft, hrank, hlooser, hstacked⟩, hordered, htighter⟩ := h
  refine ⟨hstacked, ⟨hrank, fun o ho => htighter o ho top List.mem_cons_self, hleft, hordered⟩, ?_⟩
  intro o ho v hv
  rcases List.mem_append.1 ho with ho | ho
  · exact Nat.lt_of_le_of_lt (hrank o ho) (hlooser v hv)
  · rcases List.mem_cons.1 ho with rfl | ho
    · exact hlooser v hv
    · exact htighter o ho v (List.mem_cons_of_mem top hv)

/-- What is left at the end is ordered. -/
theorem Ready.finish {stack : List Waiting} {current : Layout} (h : Ready stack current) :
    (finish stack current).Ordered := by
  induction stack generalizing current with
  | nil => exact h.ordered
  | cons top stack ih => exact ih h.close

/-- Closing operators up to a rank leaves only looser ones, and a layout that an operator of this rank
    may stand above. -/
theorem Ready.reduce {stack : List Waiting} {current : Layout} {rank : Nat} (h : Ready stack current)
    (hrank : ∀ o ∈ current.operators, o.rank ≤ rank) :
    Ready (reduce rank stack current).1 (reduce rank stack current).2 ∧
      (∀ v ∈ (reduce rank stack current).1, rank < v.op.rank) ∧
      ∀ o ∈ (reduce rank stack current).2.operators, o.rank ≤ rank := by
  induction stack generalizing current with
  | nil => exact ⟨h, fun _ hv => absurd hv List.not_mem_nil, hrank⟩
  | cons top stack ih =>
      unfold Parse.reduce
      by_cases hle : top.op.rank ≤ rank
      · rw [if_pos hle]
        apply ih h.close
        intro o ho
        rcases List.mem_append.1 ho with ho | ho
        · exact Nat.le_trans (h.stacked.2.1 o ho) hle
        · rcases List.mem_cons.1 ho with rfl | ho
          · exact hle
          · exact hrank o ho
      · rw [if_neg hle]
        refine ⟨h, ?_, hrank⟩
        intro v hv
        rcases List.mem_cons.1 hv with rfl | hv
        · exact Nat.lt_of_not_le hle
        · exact Nat.lt_trans (Nat.lt_of_not_le hle) (h.stacked.2.2.1 v hv)

/-- One step of the pass: what a new operator leaves on the stack. -/
theorem Stacked.push {stack : List Waiting} (h : Stacked stack) (x : Operand) (op : Operator) :
    Stacked (⟨(reduce op.rank stack (.operand x)).2, op⟩ :: (reduce op.rank stack (.operand x)).1) := by
  have hnone : ∀ o ∈ (Layout.operand x).operators, o.rank ≤ op.rank :=
    fun _ ho => absurd ho List.not_mem_nil
  obtain ⟨hready, hlooser, hrank⟩ := (ready_operand h x).reduce hnone
  exact ⟨hready.ordered, hrank, hlooser, hready.stacked⟩

/-! ### What the stack holds -/

/-- The tokens of the waiting operators and their left operands, in order. -/
def waitingTokens : List Waiting → List Token
  | [] => []
  | top :: stack => waitingTokens stack ++ (top.left.tokens ++ [.operator top.op])

/-- At the end, no token is lost. -/
theorem tokens_finish (stack : List Waiting) (current : Layout) :
    (finish stack current).tokens = waitingTokens stack ++ current.tokens := by
  induction stack generalizing current with
  | nil => rfl
  | cons top stack ih =>
      rw [finish, ih, waitingTokens, Layout.tokens]
      simp only [List.append_assoc, List.cons_append, List.nil_append]

/-- A reduction loses no token, and keeps their order. -/
theorem tokens_reduce (rank : Nat) (stack : List Waiting) (current : Layout) :
    waitingTokens (reduce rank stack current).1 ++ (reduce rank stack current).2.tokens =
      waitingTokens stack ++ current.tokens := by
  induction stack generalizing current with
  | nil => rfl
  | cons top stack ih =>
      unfold reduce
      split
      · rw [ih, waitingTokens, Layout.tokens]
        simp only [List.append_assoc, List.cons_append, List.nil_append]
      · rfl

/-! ### The pass finds the ordered layout -/

/-- The whole run: its result is ordered and has the tokens that were waiting and those still read. -/
theorem shunt_eq_some {stack : List Waiting} {x : Operand} {tokens : List Token} {layout : Layout}
    (hstacked : Stacked stack) (h : shunt stack x tokens = some layout) :
    layout.Ordered ∧ layout.tokens = waitingTokens stack ++ x.token :: tokens := by
  fun_induction shunt stack x tokens with
  | case1 stack x =>
      cases h
      exact ⟨(ready_operand hstacked x).finish, tokens_finish stack (.operand x)⟩
  | case2 => cases h
  | case3 stack x op token tokens y hy rest left hreduce ih =>
      have hpush := hstacked.push x op
      have htokens := tokens_reduce op.rank stack (.operand x)
      rw [hreduce] at hpush htokens
      obtain ⟨hordered, hlayout⟩ := ih hpush h
      refine ⟨hordered, ?_⟩
      rw [hlayout, waitingTokens, Operand.ofToken?_eq_some hy]
      simp only [Layout.tokens] at htokens
      rw [← List.append_assoc, htokens]
      simp only [List.append_assoc, List.cons_append, List.nil_append]
  | case4 => cases h

/-- The pass runs through tokens that alternate, whatever waits on its stack. -/
theorem Alternates.exists_shunt {tokens : List Token} (h : Alternates tokens) :
    ∃ x tail, tokens = Operand.token x :: tail ∧
      ∀ stack, ∃ layout, shunt stack x tail = some layout := by
  induction h with
  | operand x => exact ⟨x, [], rfl, fun stack => ⟨_, rfl⟩⟩
  | cons x op _ ih =>
      obtain ⟨y, tail, rfl, hy⟩ := ih
      refine ⟨x, _, rfl, fun stack => ?_⟩
      rw [shunt, Operand.ofToken?_token]
      exact hy _

/-- The pass gives a layout for tokens that alternate. -/
theorem Alternates.exists_shuntingYard {tokens : List Token} (h : Alternates tokens) :
    ∃ layout, shuntingYard tokens = some layout := by
  obtain ⟨x, tail, rfl, hx⟩ := h.exists_shunt
  rw [shuntingYard, Operand.ofToken?_token]
  exact hx []

/-- What the pass gives is an ordered layout of the tokens. -/
theorem ordered_of_shuntingYard {tokens : List Token} {layout : Layout}
    (h : shuntingYard tokens = some layout) : layout.tokens = tokens ∧ layout.Ordered := by
  unfold shuntingYard at h
  split at h
  · cases h
  · split at h
    · cases h
    · rename_i x hx
      obtain ⟨hordered, htokens⟩ := @shunt_eq_some [] _ _ _ trivial h
      rw [Operand.ofToken?_eq_some hx]
      exact ⟨htokens, hordered⟩

/-- The pass finds the ordered layout of a list of tokens, and nothing else. -/
theorem shuntingYard_eq_some_iff {tokens : List Token} {layout : Layout} :
    shuntingYard tokens = some layout ↔ layout.tokens = tokens ∧ layout.Ordered := by
  constructor
  · exact ordered_of_shuntingYard
  · rintro ⟨rfl, hordered⟩
    obtain ⟨found, hfound⟩ := layout.alternates.exists_shuntingYard
    obtain ⟨htokens, hordered'⟩ := ordered_of_shuntingYard hfound
    rw [hfound, hordered'.unique hordered htokens]

/-- Tokens that alternate have one ordered layout. -/
theorem Alternates.existsUnique_layout {tokens : List Token} (h : Alternates tokens) :
    ∃! layout : Layout, layout.tokens = tokens ∧ layout.Ordered := by
  obtain ⟨layout, hlayout⟩ := h.exists_shuntingYard
  obtain ⟨htokens, hordered⟩ := ordered_of_shuntingYard hlayout
  refine ⟨layout, ⟨htokens, hordered⟩, ?_⟩
  rintro other ⟨htokens', hordered'⟩
  exact hordered'.unique hordered (htokens'.trans htokens.symm)

/-- Alternation and operands that build are all that building needs. -/
theorem builds_of_alternates {tokens : List Token} (h : Alternates tokens)
    (hoperands : ∀ x : Operand, x.token ∈ tokens → ∃ e, BuildsAlone x e) :
    ∃ height expr, Builds height tokens expr := by
  obtain ⟨layout, ⟨rfl, hordered⟩, -⟩ := h.existsUnique_layout
  obtain ⟨expr, hgrafts⟩ := Layout.exists_grafts hoperands
  obtain ⟨height, hbuilds⟩ := builds_layout hordered hgrafts
  exact ⟨height, expr, hbuilds⟩

end Parse

/-! ### Building is reading by precedence -/

namespace Token

/-- The text a token carries. An operator carries none. -/
def payload : Token → Text
  | number literal => literal
  | operator _ => []
  | group text => text

/-- The number of tokens and of the characters they carry. -/
def bulk (tokens : List Token) : Nat :=
  tokens.length + (tokens.flatMap payload).length

theorem bulk_cons (token : Token) (tokens : List Token) :
    bulk (token :: tokens) = 1 + token.payload.length + bulk tokens := by
  rw [bulk, bulk, List.length_cons, List.flatMap_cons, List.length_append]
  omega

theorem extent_le (token : Token) : token.extent ≤ 1 + token.payload.length := by
  cases token with
  | number literal => exact Nat.zero_le _
  | operator op => exact Nat.le_refl 1
  | group text => exact Nat.le_add_left _ _

/-- The bulk of tokens bounds their extent. -/
theorem extents_le_bulk (tokens : List Token) : extents tokens ≤ bulk tokens := by
  induction tokens with
  | nil => exact Nat.le_refl 0
  | cons token tokens ih =>
      have := token.extent_le
      rw [extents_cons, bulk_cons]
      omega

/-- An operand leaves room for one more. -/
theorem extents_lt_bulk {tokens : List Token} {x : Parse.Operand} (h : x.token ∈ tokens) :
    extents tokens < bulk tokens := by
  induction tokens with
  | nil => cases h
  | cons token tokens ih =>
      rw [extents_cons, bulk_cons]
      rcases List.mem_cons.1 h with rfl | h
      · have hrest := extents_le_bulk tokens
        have hx : x.token.extent ≤ x.token.payload.length := by
          cases x with
          | number literal => exact Nat.zero_le _
          | group text => exact Nat.le_refl _
        omega
      · have := token.extent_le
        have := ih h
        omega

theorem bulk_singleton_le {token : Token} {tokens : List Token} (h : token ∈ tokens) :
    bulk [token] ≤ bulk tokens := by
  induction tokens with
  | nil => cases h
  | cons other tokens ih =>
      rw [bulk_cons other]
      rcases List.mem_cons.1 h with rfl | h
      · rw [bulk_cons]
        exact Nat.add_le_add_left (Nat.zero_le _) _
      · exact Nat.le_trans (ih h) (Nat.le_add_left _ _)

end Token

namespace Parse

/-- Tokens that alternate have an operand among them. -/
theorem Alternates.exists_operand {tokens : List Token} (h : Alternates tokens) :
    ∃ x : Operand, x.token ∈ tokens := by
  cases h with
  | operand x => exact ⟨x, List.mem_cons_self⟩
  | cons x op _ => exact ⟨x, List.mem_cons_self⟩

/-- With limits above the bulk of the tokens, each of their operands builds what it stands for. -/
theorem build_operand_iff {limits : Limits} {tokens : List Token} {x : Operand} {expr : Expr}
    (hx : x.token ∈ tokens) (hnesting : Token.bulk tokens ≤ limits.nesting)
    (hchain : Token.bulk tokens ≤ limits.chain) :
    build limits [x.token] = .ok expr ↔ BuildsAlone x expr := by
  have hbulk := Token.bulk_singleton_le hx
  have hextents : Token.extents [x.token] < Token.bulk [x.token] :=
    Token.extents_lt_bulk List.mem_cons_self
  exact build_eq_ok_iff_of_le (by omega) (by omega)

/-- With limits that hold the tokens and all that they carry, building succeeds exactly on lists in
    which operands and operators alternate and every operand builds on its own, and it gives the
    ordered layout of the list over the expressions of its operands. A list that alternates has
    exactly one ordered layout, and it is the one found by reading in one pass with a stack. -/
theorem build_eq_ok_iff_precedence {limits : Limits} {tokens : List Token}
    (hnesting : Token.bulk tokens ≤ limits.nesting) (hchain : Token.bulk tokens ≤ limits.chain) :
    (∀ expr, build limits tokens = .ok expr ↔
      Alternates tokens ∧
        (∀ x : Operand, x.token ∈ tokens → ∃ e, build limits [x.token] = .ok e) ∧
        ∃ layout : Layout, layout.tokens = tokens ∧ layout.Ordered ∧
          layout.Grafts (fun x e => build limits [x.token] = .ok e) expr) ∧
      (Alternates tokens → ∃! layout : Layout, layout.tokens = tokens ∧ layout.Ordered) ∧
      ∀ layout, shuntingYard tokens = some layout ↔ layout.tokens = tokens ∧ layout.Ordered := by
  have halone {x : Operand} (hx : x.token ∈ tokens) (e : Expr) :
      build limits [x.token] = .ok e ↔ BuildsAlone x e := build_operand_iff hx hnesting hchain
  refine ⟨fun expr => ?_, Alternates.existsUnique_layout, fun layout => shuntingYard_eq_some_iff⟩
  constructor
  · intro h
    obtain ⟨height, hbuilds, -⟩ := build_eq_ok_iff.1 h
    obtain ⟨layout, rfl, hordered, hgrafts⟩ := exists_layout hbuilds
    refine ⟨layout.alternates, ?_, layout, rfl, hordered, ?_⟩
    · intro x hx
      obtain ⟨e, he⟩ := hgrafts.exists_sub x hx
      exact ⟨e, (halone hx e).2 he⟩
    · exact hgrafts.mono fun x hx e he => (halone hx e).2 he
  · rintro ⟨halternates, -, layout, rfl, hordered, hgrafts⟩
    obtain ⟨x, hx⟩ := halternates.exists_operand
    have hextents := Token.extents_lt_bulk hx
    rw [build_eq_ok_iff_of_le (by omega) (by omega), builds_iff_layout]
    exact ⟨layout, rfl, hordered, hgrafts.mono fun y hy e he => (halone hy e).1 he⟩

/-- In `1 - 2 + (3)` the sum binds tighter than the difference. -/
theorem build_sub_then_add :
    ∃ tokens expr, tokens = [.number ['1'], .operator .sub, .number ['2'], .operator .add,
        .group ['(', '3', ')']] ∧
      expr = .binary (.number (.ofBits 0x3ff0000000000000)) .sub
        (.binary (.number (.ofBits 0x4000000000000000)) .add (.number (.ofBits 0x4008000000000000))) ∧
      Token.bulk tokens ≤ Limits.nesting {} ∧ Token.bulk tokens ≤ Limits.chain {} ∧
      build {} tokens = .ok expr ∧
      ∃ layout : Layout, layout.tokens = tokens ∧ layout.Ordered ∧
        layout.Grafts (fun x e => build {} [x.token] = .ok e) expr := by
  have hbuild : build {} [.number ['1'], .operator .sub, .number ['2'], .operator .add,
      .group ['(', '3', ')']] = .ok (.binary (.number (.ofBits 0x3ff0000000000000)) .sub
        (.binary (.number (.ofBits 0x4000000000000000)) .add
          (.number (.ofBits 0x4008000000000000)))) := by decide +kernel
  refine ⟨_, _, rfl, rfl, by decide, by decide, hbuild, ?_⟩
  exact (((build_eq_ok_iff_precedence (by decide) (by decide)).1 _).1 hbuild).2.2

end Parse

end Calculator
