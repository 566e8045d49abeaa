/-
Module: Calculator.Proofs.Composition
Layer: Proofs
Purpose: Reading is compositional over brackets. Two balanced texts in brackets around an operator are
  read as the operator between what each of them is read as, one group further in and one operator
  further down: the builder only compares its counters with the limits, so moving both by one moves
  nothing else than the limit that an error mentions. What goes wrong in the left text is reported
  before what goes wrong in the right one, whatever it is.
Imports: Calculator.Proofs.Limits
Trusted boundary: none (fully proved)
Main exports: Limits.raise, ParseError.raise, Parse.buildAt_raise, Parse.parse_enclosed_operands
-/
import Calculator.Proofs.Limits

namespace Calculator

/-- Both limits, one larger. -/
def Limits.raise (limits : Limits) : Limits := ⟨limits.nesting + 1, limits.chain + 1⟩

/-- The error under limits that are one larger. -/
def ParseError.raise : ParseError → ParseError
  | nestedTooDeeply limit => nestedTooDeeply (limit + 1)
  | chainedTooLong limit => chainedTooLong (limit + 1)
  | error => error

/-! ### Raised limits -/

namespace Parse

/-- A step passes on the errors of its calls, and its own errors are not those of the limits. -/
theorem step_raise {inside side inside' side' : List Token → Except ParseError Expr}
    {tokens : List Token}
    (hinside : ∀ inner, Token.totalWeight inner < Token.totalWeight tokens →
      inside' inner = (inside inner).mapError ParseError.raise)
    (hside : ∀ part, Token.totalWeight part < Token.totalWeight tokens →
      side' part = (side part).mapError ParseError.raise) :
    step inside' side' tokens = (step inside side tokens).mapError ParseError.raise := by
  match tokens with
  | [] => rfl
  | [.group group] =>
      simp only [step]
      split
      · rfl
      · rename_i inner hscan
        apply hinside
        simpa [Token.totalWeight] using Token.totalWeight_scan_stripOuter hscan
  | [.number literal] =>
      simp only [step]
      split <;> rfl
  | [.operator op] => rfl
  | first :: second :: rest =>
      simp only [step]
      split
      · rfl
      · rename_i split hsplit
        obtain ⟨hleft, hright⟩ := Split.totalWeight_lt hsplit
        rw [hside _ hleft, hside _ hright]
        cases side split.left with
        | error error => rfl
        | ok left => cases side split.right <;> rfl

/-- Inside one more group, below one more operator and within raised limits, the builder gives the same
    result but for the limit in its error. -/
theorem buildAt_raise (limits : Limits) (nesting splits : Nat) (tokens : List Token) :
    buildAt limits.raise (nesting + 1) (splits + 1) tokens =
      (buildAt limits nesting splits tokens).mapError ParseError.raise := by
  rcases Nat.lt_or_ge limits.nesting nesting with hdeep | hdeep
  · rw [buildAt_nestedTooDeeply splits tokens hdeep]
    exact buildAt_nestedTooDeeply (splits + 1) tokens (Nat.succ_lt_succ hdeep)
  rcases Nat.lt_or_ge limits.chain splits with hlong | hlong
  · rw [buildAt_chainedTooLong tokens hdeep hlong]
    exact buildAt_chainedTooLong tokens (Nat.succ_le_succ hdeep) (Nat.succ_lt_succ hlong)
  rw [buildAt_eq_step tokens hdeep hlong,
    buildAt_eq_step tokens (Nat.succ_le_succ hdeep) (Nat.succ_le_succ hlong)]
  apply step_raise
  · intro inner _
    exact buildAt_raise limits (nesting + 1) splits inner
  · intro part _
    exact buildAt_raise limits nesting (splits + 1) part
termination_by Token.totalWeight tokens

end Parse

/-! ### Operands in brackets -/

/-- A balanced text between brackets is scanned as one group. -/
theorem Token.spells_enclose {w : Text} (hw : Bracket.Balanced w) :
    Spells (Bracket.enclose w) [.group (Bracket.enclose w)] := by
  have hsingle := @Spells.single [] [] (.group (Bracket.enclose w)) Text.blanks_nil ⟨w, hw, rfl⟩
    Text.blanks_nil
  rwa [List.nil_append, List.append_nil] at hsingle

namespace Parse

/-- A text in brackets, below one operator, is built as the text is read. -/
theorem buildAt_enclose (limits : Limits) (w : Text) :
    buildAt limits.raise 0 1 [.group (Bracket.enclose w)] =
      (parse limits w).mapError ParseError.raise := by
  have hchain : 1 ≤ limits.raise.chain := Nat.le_add_left 1 limits.chain
  rw [buildAt_eq_step _ (Nat.zero_le _) hchain, parse]
  simp only [step, Bracket.stripOuter_enclose]
  cases Token.scan w with
  | error error => rfl
  | ok tokens => exact buildAt_raise limits 0 0 tokens

/-- Two balanced texts in brackets around an operator are read as the operator between what they are
    read as. If one of them is not, the error is that of the first, but for the limit it names. -/
theorem parse_enclosed_operands (limits : Limits) {a b : Text} (op : Operator)
    (ha : Bracket.Balanced a) (hb : Bracket.Balanced b) :
    parse limits.raise (Bracket.enclose a ++ op.symbol :: Bracket.enclose b) =
      ((parse limits a).bind fun left =>
        (parse limits b).map fun right => .binary left op right).mapError ParseError.raise := by
  have hscan : Token.scan (Bracket.enclose a ++ op.symbol :: Bracket.enclose b) =
      .ok [.group (Bracket.enclose a), .operator op, .group (Bracket.enclose b)] :=
    Token.scan_eq_ok_iff_spells.2 ((Token.spells_enclose ha).join op (Token.spells_enclose hb))
  have hsplit : Split.loosest? [.group (Bracket.enclose a), .operator op, .group (Bracket.enclose b)] =
      some ⟨[.group (Bracket.enclose a)], op, [.group (Bracket.enclose b)]⟩ := rfl
  rw [parse, hscan]
  show buildAt limits.raise 0 0 _ = _
  rw [buildAt_split (Nat.zero_le _) (Nat.zero_le _) hsplit (List.cons_ne_nil _ _),
    buildAt_enclose limits a, buildAt_enclose limits b]
  cases parse limits a with
  | error error => rfl
  | ok left => cases parse limits b <;> rfl

/-- The brackets of the right operand are one too many for limits of zero, and still for limits of one
    when both operands are put in brackets. -/
theorem parse_enclosed_nested :
    Bracket.Balanced "1".toList ∧ Bracket.Balanced "(2)".toList ∧
      parse ⟨0, 0⟩ "1".toList = .ok (.number (.ofBits 0x3ff0000000000000)) ∧
      parse ⟨0, 0⟩ "(2)".toList = .error (.nestedTooDeeply 0) ∧
      parse ⟨1, 1⟩ "(1)*((2))".toList = .error (.nestedTooDeeply 1) := by
  have hleft : parse ⟨0, 0⟩ "1".toList = .ok (.number (.ofBits 0x3ff0000000000000)) := by
    decide +kernel
  have hright : parse ⟨0, 0⟩ "(2)".toList = .error (.nestedTooDeeply 0) := by decide +kernel
  have hboth := @parse_enclosed_operands ⟨0, 0⟩ "1".toList "(2)".toList .mul rfl rfl
  rw [hleft, hright] at hboth
  exact ⟨rfl, rfl, hleft, hright, hboth⟩

end Parse

end Calculator
