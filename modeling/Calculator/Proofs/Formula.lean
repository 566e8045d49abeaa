/-
Module: Calculator.Proofs.Formula
Layer: Proofs
Purpose: How formulas in LaTeX are conventionally read. A formula is a row of symbols, with spaces between
  them that carry no meaning. Sums and differences stand on one level, products bind tighter, powers and
  fractions tighter still, and chains on one level group to the left. There are two conventions on
  numbers. In one they have no sign. In the other a minus sign may stand before a number where a factor
  has to stand, and binds looser than the exponent of the number: `-2^{2}` is the negative of a square.
Imports: Calculator.Expr.Basic, Calculator.Proofs.Literal
Trusted boundary: human-reviewed spec
Main exports: Latex.Symbol, Latex.symbols?, Latex.Convention, Latex.Convention.Derives,
  Latex.Convention.Reads, Latex.conventional, Latex.Reading, Latex.signed, Latex.symbols?_text_append
-/
import Calculator.Expr.Basic
import Calculator.Proofs.Literal

namespace Calculator.Latex

/-! ### Symbols -/

/-- The two signs of a sum. -/
inductive Sign where
  | plus
  | minus
  deriving DecidableEq, Repr

/-- The operator for which a sign stands. -/
def Sign.operator : Sign → Operator
  | plus => .add
  | minus => .sub

/-- A symbol of a formula. -/
inductive Symbol where
  /-- A number literal. -/
  | number (literal : Text)
  | sign (which : Sign)
  | times
  /-- Opens an exponent. -/
  | power
  /-- Opens the numerator of a fraction. -/
  | fraction
  /-- Closes the numerator of a fraction and opens its denominator. -/
  | bar
  /-- Closes an exponent or a denominator. -/
  | close
  /-- Opens a bracket. -/
  | left
  /-- Closes a bracket. -/
  | right
  deriving DecidableEq, Repr

/-- What a symbol is written as. -/
def Symbol.text : Symbol → Text
  | number literal => literal
  | sign which => [which.operator.symbol]
  | times => "\\cdot".toList
  | power => "^\x7b".toList
  | fraction => "\\frac\x7b".toList
  | bar => "\x7d\x7b".toList
  | close => "\x7d".toList
  | left => "\\left(".toList
  | right => "\\right)".toList

/-- All symbols but the numbers. A symbol that goes on behind the text of another comes before it. -/
def fixedSymbols : List Symbol :=
  [.sign .plus, .sign .minus, .times, .power, .fraction, .bar, .close, .left, .right]

/-- Reads the symbol at the start of a text, and gives what follows it. -/
def readSymbol? (text : Text) : Option (Symbol × Text) :=
  match fixedSymbols.find? fun symbol => symbol.text.isPrefixOf text with
  | some symbol => some (symbol, text.drop symbol.text.length)
  | none =>
      match Numeral.takeLiteral text with
      | ([], _) => none
      | (literal, tail) => some (.number literal, tail)

theorem text_ne_nil_of_mem {symbol : Symbol} (h : symbol ∈ fixedSymbols) : symbol.text ≠ [] := by
  revert symbol
  decide

/-- Reading a symbol leaves less text. -/
theorem readSymbol?_length {text tail : Text} {symbol : Symbol}
    (h : readSymbol? text = some (symbol, tail)) : tail.length < text.length := by
  unfold readSymbol? at h
  split at h
  · rename_i symbol' hfound
    cases h
    have hlead : symbol.text <+: text := by
      simpa using List.find?_some hfound
    have hpos := List.length_pos_iff.2 (text_ne_nil_of_mem (List.mem_of_find?_eq_some hfound))
    have hle := hlead.length_le
    rw [List.length_drop]
    omega
  · split at h
    · cases h
    · rename_i literal tail' hne hcut
      cases h
      have hlength := congrArg List.length (Numeral.takeLiteral_append text)
      have hpos : 0 < literal.length := List.length_pos_iff.2 fun hnil => hne hnil
      rw [hcut, List.length_append] at hlength
      simp only at hlength
      omega

/-- The symbols of a text, with any number of spaces around each of them. -/
def symbols? : Text → Option (List Symbol)
  | [] => some []
  | c :: rest =>
      if c = ' ' then symbols? rest
      else
        match _ : readSymbol? (c :: rest) with
        | none => none
        | some (symbol, tail) => (symbols? tail).map (symbol :: ·)
termination_by text => text.length
decreasing_by
  · exact Nat.lt_succ_self _
  · exact readSymbol?_length ‹_›

/-! ### The grammar -/

/-- The phrases of formulas, from the loosest to the tightest. -/
inductive Phrase where
  | sum
  | product
  | factor
  | base
  deriving DecidableEq, Repr

/-- What the numbers and the operators of formulas are read as, and the minus sign before a number, if
    numbers may have one. -/
structure Convention (α : Type) where
  number : Binary64 → α
  binary : α → Operator → α → α
  /-- What a minus sign makes of a reading. -/
  minus : Option (α → α)

namespace Convention

variable {α : Type}

/-- The symbols make up a phrase and are read as `r`:
    `sum := product | sum ('+' | '-') product`, `product := factor | product '\cdot' factor`,
    `factor := '\frac{' sum '}{' sum '}' | base | base '^{' sum '}'` and
    `base := number | '\left(' sum '\right)'`. Where numbers may have a minus sign, `'-' number` and
    `'-' number '^{' sum '}'` are factors, too, and in the second the sign negates the power. -/
inductive Derives (C : Convention α) : Phrase → List Symbol → α → Prop where
  | number {literal : Text} {x : Binary64} :
      Numeral.IsLiteral literal → Numeral.read? literal = some x →
        Derives C .base [.number literal] (C.number x)
  | bracket {symbols : List Symbol} {r : α} :
      Derives C .sum symbols r → Derives C .base (.left :: (symbols ++ [.right])) r
  | base {symbols : List Symbol} {r : α} :
      Derives C .base symbols r → Derives C .factor symbols r
  | power {symbols exponent : List Symbol} {r s : α} :
      Derives C .base symbols r → Derives C .sum exponent s →
        Derives C .factor (symbols ++ .power :: (exponent ++ [.close])) (C.binary r .pow s)
  | minus {negate : α → α} {literal : Text} {x : Binary64} :
      C.minus = some negate → Numeral.IsLiteral literal → Numeral.read? literal = some x →
        Derives C .factor [.sign .minus, .number literal] (negate (C.number x))
  | minusPower {negate : α → α} {literal : Text} {x : Binary64} {exponent : List Symbol} {s : α} :
      C.minus = some negate → Numeral.IsLiteral literal → Numeral.read? literal = some x →
        Derives C .sum exponent s →
          Derives C .factor (.sign .minus :: .number literal :: .power :: (exponent ++ [.close]))
            (negate (C.binary (C.number x) .pow s))
  | fraction {numerator denominator : List Symbol} {r s : α} :
      Derives C .sum numerator r → Derives C .sum denominator s →
        Derives C .factor (.fraction :: (numerator ++ .bar :: (denominator ++ [.close])))
          (C.binary r .div s)
  | factor {symbols : List Symbol} {r : α} :
      Derives C .factor symbols r → Derives C .product symbols r
  | times {symbols symbols' : List Symbol} {r s : α} :
      Derives C .product symbols r → Derives C .factor symbols' s →
        Derives C .product (symbols ++ .times :: symbols') (C.binary r .mul s)
  | product {symbols : List Symbol} {r : α} :
      Derives C .product symbols r → Derives C .sum symbols r
  | sum {symbols symbols' : List Symbol} {r s : α} (sign : Sign) :
      Derives C .sum symbols r → Derives C .product symbols' s →
        Derives C .sum (symbols ++ .sign sign :: symbols') (C.binary r sign.operator s)

/-- The text is a formula that is read as `r`. -/
def Reads (C : Convention α) (text : Text) (r : α) : Prop :=
  ∃ symbols, symbols? text = some symbols ∧ C.Derives .sum symbols r

/-- Any phrase can stand where a sum has to stand. -/
theorem Derives.toSum {C : Convention α} {phrase : Phrase} {symbols : List Symbol} {r : α}
    (h : C.Derives phrase symbols r) : C.Derives .sum symbols r := by
  cases phrase with
  | sum => exact h
  | product => exact .product h
  | factor => exact .product (.factor h)
  | base => exact .product (.factor (.base h))

end Convention

/-- The formulas in which no number has a sign, read as expressions. -/
abbrev conventional : Convention Expr where
  number := .number
  binary := .binary
  minus := none

/-- What a formula with signed numbers is read as. -/
inductive Reading where
  | number (x : Binary64)
  | minus (operand : Reading)
  | binary (left : Reading) (op : Operator) (right : Reading)
  deriving DecidableEq, Repr

/-- The formulas in which numbers may have a minus sign. -/
abbrev signed : Convention Reading where
  number := .number
  binary := .binary
  minus := some .minus

/-! ### The symbols of a text -/

/-- No symbol in front of such a text could go on into it. -/
def Symbol.Stops (symbol : Symbol) (rest : Text) : Prop :=
  match symbol with
  | number literal => Numeral.IsLiteral literal ∧ Numeral.Ends rest
  | close => rest.head? ≠ some '\x7b'
  | _ => True

/-- Spaces between symbols carry no meaning. -/
theorem symbols?_space (rest : Text) : symbols? (' ' :: rest) = symbols? rest := by
  rw [symbols?, if_pos rfl]

/-- Only numbers start with a digit. -/
theorem find?_fixedSymbols_of_isDigit {c : Char} (rest : Text) (h : c.isDigit = true) :
    fixedSymbols.find? (fun symbol => symbol.text.isPrefixOf (c :: rest)) = none := by
  have hheads : ∀ symbol ∈ fixedSymbols, symbol.text.head?.any Char.isDigit = false := by decide
  apply List.find?_eq_none.2
  intro symbol hmem hlead
  obtain ⟨d, more, htext⟩ := List.exists_cons_of_ne_nil (text_ne_nil_of_mem hmem)
  rw [htext, List.isPrefixOf_iff_prefix, List.cons_prefix_cons] at hlead
  have hdigit := hheads symbol hmem
  rw [htext, List.head?_cons, Option.any_some, hlead.1, h] at hdigit
  cases hdigit

theorem readSymbol?_of_find? {text : Text} {symbol : Symbol}
    (h : fixedSymbols.find? (fun symbol => symbol.text.isPrefixOf text) = some symbol) :
    readSymbol? text = some (symbol, text.drop symbol.text.length) := by
  rw [readSymbol?, h]

/-- A symbol at the start of a text is read whole. -/
theorem readSymbol?_text_append {symbol : Symbol} {rest : Text} (h : symbol.Stops rest) :
    readSymbol? (symbol.text ++ rest) = some (symbol, rest) := by
  cases symbol with
  | number literal =>
      obtain ⟨c, more, rfl, hdigit⟩ := h.1.head
      have hcut := Numeral.takeLiteral_append_of_ends h.1 h.2
      have hfixed := find?_fixedSymbols_of_isDigit (more ++ rest) hdigit
      change readSymbol? (c :: (more ++ rest)) = _
      rw [readSymbol?, hfixed]
      rw [List.cons_append] at hcut
      rw [hcut]
  | close =>
      cases rest with
      | nil => rfl
      | cons c rest =>
          have hc : ('\x7b' == c) = false := by
            apply beq_false_of_ne
            rintro rfl
            exact h rfl
          -- Of the symbols before this one, only that between the parts of a fraction starts alike.
          have hbar : Symbol.bar.text.isPrefixOf ('\x7d' :: c :: rest) = false := by
            change ('\x7b' == c && true) = false
            rw [hc, Bool.false_and]
          have hfixed : fixedSymbols.find?
              (fun symbol => symbol.text.isPrefixOf ('\x7d' :: c :: rest)) = some .close := by
            change (match Symbol.bar.text.isPrefixOf ('\x7d' :: c :: rest) with
              | true => some Symbol.bar
              | false => some Symbol.close) = some Symbol.close
            rw [hbar]
          exact readSymbol?_of_find? hfixed
  | sign which => cases which <;> rfl
  | times => rfl
  | power => rfl
  | fraction => rfl
  | bar => rfl
  | left => rfl
  | right => rfl

/-- No symbol starts with a space. -/
theorem Symbol.Stops.head {symbol : Symbol} {rest : Text} (h : symbol.Stops rest) :
    ∃ c more, symbol.text = c :: more ∧ c ≠ ' ' := by
  cases symbol with
  | number literal =>
      obtain ⟨c, more, rfl, hdigit⟩ := h.1.head
      refine ⟨c, more, rfl, ?_⟩
      rintro rfl
      cases hdigit
  | sign which => cases which <;> exact ⟨_, _, rfl, by decide⟩
  | times => exact ⟨_, _, rfl, by decide⟩
  | power => exact ⟨_, _, rfl, by decide⟩
  | fraction => exact ⟨_, _, rfl, by decide⟩
  | bar => exact ⟨_, _, rfl, by decide⟩
  | close => exact ⟨_, _, rfl, by decide⟩
  | left => exact ⟨_, _, rfl, by decide⟩
  | right => exact ⟨_, _, rfl, by decide⟩

/-- A symbol in front of a text is the first of its symbols, if it does not go on into the text. -/
theorem symbols?_text_append {symbol : Symbol} {rest : Text} (h : symbol.Stops rest) :
    symbols? (symbol.text ++ rest) = (symbols? rest).map (symbol :: ·) := by
  obtain ⟨c, more, htext, hspace⟩ := h.head
  have hread := readSymbol?_text_append h
  rw [htext, List.cons_append] at hread ⊢
  rw [symbols?, if_neg hspace]
  split
  · rename_i hnone
    rw [hread] at hnone
    cases hnone
  · rename_i symbol' tail hsome
    rw [hread] at hsome
    cases hsome
    rfl

end Calculator.Latex
