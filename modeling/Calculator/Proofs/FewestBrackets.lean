/-
Module: Calculator.Proofs.FewestBrackets
Layer: Proofs
Purpose: The LaTeX form of an expression has no bracket too many. Chains that differ in their grouping
  have one form, and a formula opens at least the brackets which the form of its expression opens, as
  the form has them only where the grammar asks for a tighter phrase. So of all formulas that are read
  as the expression, up to the grouping of chains, its form has the fewest brackets. The count decides
  it alone: where a pair is taken away, nothing has to be said about what the rest merges with.
Imports: Calculator.Proofs.Typesetting
Trusted boundary: none (fully proved)
Main exports: Expr.symbols_eq_of_eqvGen, Latex.Phrase.brackets,
  Latex.Convention.Derives.brackets_le, Latex.count_left_of_symbols?,
  Expr.count_latex_le_of_reads, Expr.latex_bracket_needed
-/
import Calculator.Proofs.Typesetting

namespace Calculator

open Latex (Sign Symbol Phrase Convention conventional symbols? readSymbol? fixedSymbols)
open Relation (EqvGen)

/-! ### Chains grouped differently have one form -/

namespace Expr

theorem Regroups.isSum_eq {t u : Expr} (h : Regroups t u) : t.isSum = u.isSum := by
  cases h with
  | left op => cases op <;> rfl
  | right _ op => cases op <;> rfl
  | _ => rfl

theorem Regroups.isNumber_eq {t u : Expr} (h : Regroups t u) : t.isNumber = u.isNumber := by
  cases h <;> rfl

/-- A step of grouping keeps the symbols: no brackets stand where the chain was grouped to the right. -/
theorem Regroups.symbolsWith_eq (leaf : Binary64 → List Symbol) {t u : Expr} (h : Regroups t u) :
    t.symbolsWith leaf = u.symbolsWith leaf := by
  induction h with
  | add_add a b c => simp [symbolsWith]
  | add_sub a b c => simp [symbolsWith]
  | mul_mul a b c => simp [symbolsWith, enclosedIf, isSum]
  | left op b hstep ih => cases op <;> simp only [symbolsWith, ih, hstep.isSum_eq, hstep.isNumber_eq]
  | right a op hstep ih => cases op <;> simp only [symbolsWith, ih, hstep.isSum_eq]

/-- However the chains of an expression are grouped, it is written with the same symbols. -/
theorem symbols_eq_of_eqvGen {t u : Expr} (h : EqvGen Regroups t u) : t.symbols = u.symbols := by
  induction h with
  | rel _ _ hstep => exact hstep.symbolsWith_eq _
  | refl => rfl
  | symm _ _ _ ih => exact ih.symm
  | trans _ _ _ _ _ ih ih' => exact ih.trans ih'

/-- Symbols in brackets open one bracket more. -/
theorem count_enclosedIf (condition : Bool) (symbols : List Symbol) :
    (enclosedIf condition symbols).count .left = condition.toNat + symbols.count .left := by
  cases condition with
  | true => simp [enclosedIf, Nat.add_comm]
  | false => simp [enclosedIf]

end Expr

/-! ### Brackets that the grammar asks for -/

namespace Latex

/-- How many brackets an expression opens when it is written where a phrase of the kind has to
    stand. -/
def Phrase.brackets : Phrase → Expr → Nat
  | sum, e => e.symbols.count .left
  | product, e | factor, e => e.isSum.toNat + e.symbols.count .left
  | base, e => (!e.isNumber).toNat + e.symbols.count .left

namespace Phrase

variable (e f : Expr)

theorem brackets_sum_le_product : sum.brackets e ≤ product.brackets e := Nat.le_add_left _ _

/-- A base needs brackets around all that a factor needs them around, and more. -/
theorem brackets_factor_le_base : factor.brackets e ≤ base.brackets e := by
  apply Nat.add_le_add_right
  cases e with
  | number x => exact Nat.le_refl 0
  | binary left op right => exact Bool.toNat_le _

/-- Brackets give a base for any sum. -/
theorem brackets_base_le : base.brackets e ≤ sum.brackets e + 1 := by
  have hle := Bool.toNat_le (!e.isNumber)
  simp only [brackets]
  omega

/-! An operator needs the brackets of its operands, each as the phrase that has to stand there. -/

theorem brackets_add :
    sum.brackets (.binary e .add f) = sum.brackets e + sum.brackets f := by
  simp [brackets, Expr.symbols, Expr.symbolsWith]

theorem brackets_sub :
    sum.brackets (.binary e .sub f) = sum.brackets e + product.brackets f := by
  simp [brackets, Expr.symbols, Expr.symbolsWith, Expr.count_enclosedIf]

theorem brackets_mul :
    product.brackets (.binary e .mul f) = product.brackets e + factor.brackets f := by
  simp [brackets, Expr.symbols, Expr.symbolsWith, Expr.isSum, Expr.count_enclosedIf]

theorem brackets_div :
    factor.brackets (.binary e .div f) = sum.brackets e + sum.brackets f := by
  simp [brackets, Expr.symbols, Expr.symbolsWith, Expr.isSum]

theorem brackets_pow :
    factor.brackets (.binary e .pow f) = base.brackets e + sum.brackets f := by
  simp [brackets, Expr.symbols, Expr.symbolsWith, Expr.isSum, Expr.count_enclosedIf]

end Phrase

/-- Symbols that are read as an expression open at least the brackets which its own form opens. -/
theorem Convention.Derives.brackets_le {phrase : Phrase} {symbols : List Symbol} {e : Expr}
    (h : conventional.Derives phrase symbols e) : phrase.brackets e ≤ symbols.count .left := by
  induction h with
  | number => exact Nat.le_refl 0
  | @bracket symbols e _ ih =>
      calc Phrase.base.brackets e
          ≤ Phrase.sum.brackets e + 1 := Phrase.brackets_base_le e
        _ ≤ symbols.count .left + 1 := Nat.add_le_add_right ih 1
        _ = (Symbol.left :: (symbols ++ [.right])).count .left := by simp
  | @base symbols e _ ih => exact (Phrase.brackets_factor_le_base e).trans ih
  | @power symbols exponent e f _ _ ih ih' =>
      calc Phrase.factor.brackets (.binary e .pow f)
          = Phrase.base.brackets e + Phrase.sum.brackets f := Phrase.brackets_pow e f
        _ ≤ symbols.count .left + exponent.count .left := Nat.add_le_add ih ih'
        _ = (symbols ++ Symbol.power :: (exponent ++ [.close])).count .left := by simp
  | @fraction numerator denominator e f _ _ ih ih' =>
      calc Phrase.factor.brackets (.binary e .div f)
          = Phrase.sum.brackets e + Phrase.sum.brackets f := Phrase.brackets_div e f
        _ ≤ numerator.count .left + denominator.count .left := Nat.add_le_add ih ih'
        _ = (Symbol.fraction :: (numerator ++ .bar :: (denominator ++ [.close]))).count .left := by
          simp
  | minus hminus => cases hminus
  | minusPower hminus => cases hminus
  | factor _ ih => exact ih
  | @times symbols symbols' e f _ _ ih ih' =>
      calc Phrase.product.brackets (.binary e .mul f)
          = Phrase.product.brackets e + Phrase.factor.brackets f := Phrase.brackets_mul e f
        _ ≤ symbols.count .left + symbols'.count .left := Nat.add_le_add ih ih'
        _ = (symbols ++ Symbol.times :: symbols').count .left := by simp
  | @product symbols e _ ih => exact (Phrase.brackets_sum_le_product e).trans ih
  | @sum symbols symbols' e f sign _ _ ih ih' =>
      calc Phrase.sum.brackets (.binary e sign.operator f)
          ≤ Phrase.sum.brackets e + Phrase.product.brackets f := by
            cases sign with
            | plus =>
                rw [Sign.operator, Phrase.brackets_add]
                exact Nat.add_le_add_left (Phrase.brackets_sum_le_product f) _
            | minus => exact Nat.le_of_eq (Phrase.brackets_sub e f)
        _ ≤ symbols.count .left + symbols'.count .left := Nat.add_le_add ih ih'
        _ = (symbols ++ Symbol.sign sign :: symbols').count .left := by simp

/-! ### Brackets of a text

A bracket character stands nowhere but at the end of the symbol that opens a bracket, so the symbols need
not be found to count them. -/

/-- Of all symbols but numbers, only the opening bracket has a bracket character. -/
theorem count_open_of_mem {symbol : Symbol} (h : symbol ∈ fixedSymbols) :
    symbol.text.count '(' = [symbol].count .left := by
  revert symbol
  decide

theorem count_open_literal {literal : Text} (h : Numeral.IsLiteral literal) :
    literal.count '(' = 0 := by
  apply List.count_eq_zero_of_not_mem
  intro hmem
  rcases h.forall_mem _ hmem with hdigit | hpoint
  · exact absurd hdigit (by decide)
  · exact absurd hpoint (by decide)

theorem count_open_around {left right : Text} (hleft : left.count '(' = 1) (hright : right.count '(' = 0)
    (text : Text) : (left ++ text ++ right).count '(' = text.count '(' + 1 := by
  rw [List.count_append, List.count_append, hleft, hright, Nat.add_zero, Nat.add_comm]

/-- The bracket characters of a text are those of its first symbol and of the rest. -/
theorem count_open_of_readSymbol? {text tail : Text} {symbol : Symbol}
    (h : readSymbol? text = some (symbol, tail)) :
    text.count '(' = [symbol].count .left + tail.count '(' := by
  unfold readSymbol? at h
  split at h
  · rename_i symbol' hfound
    cases h
    have hlead : symbol.text <+: text := by
      simpa using List.find?_some hfound
    obtain ⟨behind, rfl⟩ := hlead
    rw [List.drop_left', List.count_append, count_open_of_mem (List.mem_of_find?_eq_some hfound)]
    rfl
  · split at h
    · cases h
    · rename_i literal tail' hne hcut
      cases h
      have htext := Numeral.takeLiteral_append text
      rw [hcut] at htext
      obtain ⟨hliteral, -⟩ := Numeral.isLiteral_of_takeLiteral hcut fun hnil => hne hnil
      rw [← htext, List.count_append, count_open_literal hliteral]
      rfl

/-- The symbols of a text open as many brackets as stand in the text. -/
theorem count_left_of_symbols? {text : Text} {symbols : List Symbol}
    (h : symbols? text = some symbols) : symbols.count .left = text.count '(' := by
  fun_induction symbols? text generalizing symbols with
  | case1 =>
      cases h
      rfl
  | case2 rest ih =>
      rw [ih h, List.count_cons_of_ne (by decide)]
  | case3 => cases h
  | case4 c rest _ symbol tail hread ih =>
      obtain ⟨more, hmore, rfl⟩ := Option.map_eq_some_iff.1 h
      rw [count_open_of_readSymbol? hread, ← ih hmore, ← List.singleton_append, List.count_append]

end Latex

/-! ### The form of an expression -/

namespace Expr

theorem count_bracketed (text : Text) : (bracketed text).count '(' = text.count '(' + 1 :=
  Latex.count_open_around (by decide) (by decide) text

/-- Of all formulas that are read as the expression, up to the grouping of chains, its form has the
    fewest brackets. -/
theorem count_latex_le_of_reads {t u : Expr} {text : Text} (h : t.Plain) (hreads : conventional.Reads text u)
    (hequal : EqvGen Regroups t u) : t.latex.count '(' ≤ text.count '(' := by
  obtain ⟨symbols, hsymbols, hderives⟩ := hreads
  calc t.latex.count '('
      = t.symbols.count .left := (Latex.count_left_of_symbols? (writes_latex h).symbols?_eq).symm
    _ = Phrase.sum.brackets u := by rw [symbols_eq_of_eqvGen hequal, Phrase.brackets]
    _ ≤ symbols.count .left := hderives.brackets_le
    _ = text.count '(' := Latex.count_left_of_symbols? hsymbols

/-- No pair of brackets in the LaTeX form of an expression with plain numbers can be left out. The form
    is read as the expression, up to the grouping of chains. Take away an opening bracket and a closing
    one behind it, its partner or not: what remains is no formula, or it is read as an expression that
    no grouping of chains makes the same. -/
theorem latex_bracket_needed {t : Expr} (h : t.Plain) :
    (∃ u, conventional.Reads t.latex u ∧ EqvGen Regroups t u) ∧
      ∀ before inside behind, t.latex = before ++ bracketed inside ++ behind →
        ∀ u, conventional.Reads (before ++ inside ++ behind) u → ¬ EqvGen Regroups t u := by
  constructor
  · obtain ⟨u, hreads, hsteps⟩ := exists_reads h
    exact ⟨u, hreads, EqvGen.reflTransGen_le_eqvGen Regroups t u hsteps⟩
  · intro before inside behind hpair u hreads hequal
    have hle := count_latex_le_of_reads h hreads hequal
    rw [hpair] at hle
    simp only [List.count_append, count_bracketed] at hle
    omega

/-- Without its brackets, the form of `2-(3+4)` is read as the sum of `2-3` and `4`. -/
theorem latex_bracket_needed_difference :
    ∃ t u, Parse.parse {} "2-(3+4)".toList = .ok t ∧ t.Plain ∧
      t.latex = "2 - ".toList ++ bracketed "3 + 4".toList ++ [] ∧
      conventional.Reads ("2 - ".toList ++ "3 + 4".toList ++ []) u ∧ ¬ EqvGen Regroups t u := by
  have hparse : Parse.parse {} "2-(3+4)".toList =
      .ok (.binary (.number (.ofBits 0x4000000000000000)) .sub
        (.binary (.number (.ofBits 0x4008000000000000)) .add
          (.number (.ofBits 0x4010000000000000)))) := by decide +kernel
  have hsymbols : symbols? ("2 - ".toList ++ "3 + 4".toList ++ []) = some ([.number ['2']] ++
      .sign .minus :: [.number ['3']] ++ .sign .plus :: [.number ['4']]) := by decide +kernel
  have htwo : conventional.Derives .base [.number ['2']] (.number (.ofBits 0x4000000000000000)) :=
    .number (.whole (Numeral.isRow_singleton rfl)) (by decide +kernel)
  have hthree : conventional.Derives .base [.number ['3']] (.number (.ofBits 0x4008000000000000)) :=
    .number (.whole (Numeral.isRow_singleton rfl)) (by decide +kernel)
  have hfour : conventional.Derives .base [.number ['4']] (.number (.ofBits 0x4010000000000000)) :=
    .number (.whole (Numeral.isRow_singleton rfl)) (by decide +kernel)
  have hreads : conventional.Reads ("2 - ".toList ++ "3 + 4".toList ++ []) _ :=
    ⟨_, hsymbols, .sum .plus (.sum .minus htwo.toSum (.factor (.base hthree)))
      (.factor (.base hfour))⟩
  have hplain := plain_of_parse hparse
  have hpair : Expr.latex (.binary (.number (.ofBits 0x4000000000000000)) .sub
      (.binary (.number (.ofBits 0x4008000000000000)) .add
        (.number (.ofBits 0x4010000000000000)))) =
      "2 - ".toList ++ bracketed "3 + 4".toList ++ [] := by decide +kernel
  exact ⟨_, _, hparse, hplain, hpair, hreads, (latex_bracket_needed hplain).2 _ _ _ hpair _ hreads⟩

end Expr

end Calculator
