/-
Module: Calculator.Proofs.Typesetting
Layer: Proofs
Purpose: The LaTeX form of an expression means the expression. It is a formula of the conventional
  grammar, and what it is read as differs from the expression only by chains that were grouped to the
  right and are read from left to right: a sum behind a plus sign, a product behind a sign of
  multiplication. Such a step keeps the value wherever addition and multiplication associate, whatever
  division and powers are. The form is followed symbol by symbol, so that the scanner of formulas and
  the grammar are dealt with apart, and the grammar is dealt with for any convention on numbers.
Imports: Calculator.Expr.Latex, Calculator.Proofs.CanonicalForm, Calculator.Proofs.UniqueReading,
  Mathlib.Logic.Relation
Trusted boundary: none (fully proved)
Main exports: Binary64.read?_latex, Expr.symbolsWith, Expr.symbols, Expr.writes_symbolsWith,
  Expr.Regroups, Interpretation, Expr.meaning_eq_of_regroups, Latex.Convention.Regrouping,
  Expr.exists_derives, Expr.exists_reads, Expr.latex_reads_regrouped
-/
import Calculator.Expr.Latex
import Calculator.Proofs.CanonicalForm
import Calculator.Proofs.UniqueReading
import Mathlib.Logic.Relation

namespace Calculator

open Latex (Symbol Phrase Convention conventional symbols? symbols?_space symbols?_text_append)
open Relation (ReflTransGen)

/-! ### Numbers -/

namespace Binary64

/-- A small whole magnitude is finite and counts as many ones. -/
theorem unitsOf_of_smallWhole? {magnitude n : Nat} (h : smallWhole? magnitude = some n) :
    magnitude < infinity ∧ unitsOf magnitude = n * unitsPerOne := by
  simp only [smallWhole?, Bool.and_eq_true, decide_eq_true_eq] at h
  split at h
  · rename_i hsmall
    cases h
    exact ⟨hsmall.1.1, (Nat.div_mul_cancel (Nat.dvd_of_mod_eq_zero hsmall.1.2)).symm⟩
  · cases h

/-- A magnitude that is a natural number is read back from the digits of the number. -/
theorem read?_ofNat {magnitude n : Nat} (hbound : magnitude < 0x8000000000000000)
    (h : smallWhole? magnitude = some n) :
    Numeral.read? (Text.ofNat n) = some ⟨false, magnitude, hbound⟩ := by
  obtain ⟨hfinite, hunits⟩ := unitsOf_of_smallWhole? h
  have hnearest : (Numeral.decimal ⟨false, Text.ofNat n, [], 0⟩).nearest = magnitude := by
    have hunit := nearest_unitsOf hfinite Nat.one_pos
    rw [Nat.mul_one, hunits] at hunit
    rw [Numeral.decimal_plain, Decimal.nearest_neg, List.append_nil, Numeral.digitsValue_ofNat]
    exact hunit
  have hofText := Numeral.ofText?_whole (Numeral.isRow_ofNat n)
  refine Numeral.read?_eq_some_iff.2 ⟨_, hofText, ?_, decide_eq_true hfinite⟩
  simp only [Numeral.value, hnearest]

/-- A finite double without a sign is a literal in LaTeX, too, and read back from it. -/
theorem read?_latex {x : Binary64} (hfinite : x.isFinite = true) (hsign : x.negative = false) :
    Numeral.IsLiteral x.latex ∧ Numeral.read? x.latex = some x := by
  cases hwhole : smallWhole? x.magnitude with
  | some n =>
      have htext : x.latex = Text.ofNat n := by simp [latex, hwhole, hsign]
      rw [htext, read?_ofNat x.bounded hwhole]
      refine ⟨.whole (Numeral.isRow_ofNat n), congrArg some ?_⟩
      obtain ⟨negative, magnitude, bounded⟩ := x
      cases hsign
      rfl
  | none =>
      have hlt : x.magnitude < infinity := of_decide_eq_true hfinite
      have hnan : x.isNaN = false := decide_eq_false (Nat.not_lt.2 hlt.le)
      have htext : x.latex = x.toText := by simp [latex, hwhole, hnan, hlt.ne]
      rw [htext]
      exact ⟨isLiteral_toText hfinite hsign, read?_toText hfinite hsign⟩

end Binary64

/-! ### The symbols of an expression -/

namespace Expr

/-- Symbols in brackets if the condition holds. -/
def enclosedIf (condition : Bool) (symbols : List Symbol) : List Symbol :=
  if condition then .left :: (symbols ++ [.right]) else symbols

/-- The symbols of an expression if `leaf` gives those of its numbers. -/
def symbolsWith (leaf : Binary64 → List Symbol) : Expr → List Symbol
  | number x => leaf x
  | binary left op right =>
      let ls := left.symbolsWith leaf
      let rs := right.symbolsWith leaf
      match op with
      | .add => ls ++ .sign .plus :: rs
      | .sub => ls ++ .sign .minus :: enclosedIf right.isSum rs
      | .mul => enclosedIf left.isSum ls ++ .times :: enclosedIf right.isSum rs
      | .div => .fraction :: (ls ++ .bar :: (rs ++ [.close]))
      | .pow => enclosedIf (!left.isNumber) ls ++ .power :: (rs ++ [.close])

/-- The symbols with which an expression is written in LaTeX if no number has a sign. -/
def symbols (t : Expr) : List Symbol := t.symbolsWith fun x => [.number x.latex]

/-- The property holds of every number in the expression. -/
def All (p : Binary64 → Prop) : Expr → Prop
  | number x => p x
  | binary left _ right => left.All p ∧ right.All p

theorem All.mono {p q : Binary64 → Prop} (hpq : ∀ x, p x → q x) {t : Expr} (h : t.All p) : t.All q := by
  induction t with
  | number x => exact hpq x h
  | binary left op right ihleft ihright => exact ⟨ihleft h.1, ihright h.2⟩

/-- Plain numbers are finite and without a sign. -/
theorem Plain.all {t : Expr} (h : t.Plain) : t.All fun x => x.isFinite = true ∧ x.negative = false := by
  induction t with
  | number x => exact h
  | binary left op right ihleft ihright => exact ⟨ihleft h.1, ihright h.2⟩

end Expr

namespace Latex

/-- No symbol with which a formula ends could go on into the text. -/
def Ends (rest : Text) : Prop := Numeral.Ends rest ∧ rest.head? ≠ some '\x7b'

/-- Nothing but digits, points and braces goes on with a symbol. -/
theorem ends_cons {c : Char} (rest : Text) (hdigit : c.isDigit = false) (hpoint : c ≠ '.')
    (hbrace : c ≠ '\x7b') : Ends (c :: rest) :=
  ⟨Numeral.ends_cons rest hdigit hpoint, fun h => hbrace (Option.some.inj h)⟩

/-- The text is scanned as the symbols wherever a formula can end behind it. -/
def Writes (text : Text) (symbols : List Symbol) : Prop :=
  ∀ rest, Ends rest → symbols? (text ++ rest) = (symbols? rest).map (symbols ++ ·)

/-- The brace that closes an argument is a symbol of its own. -/
theorem argument_append (text rest : Text) :
    Expr.argument text ++ rest = '\x7b' :: (text ++ (Symbol.close.text ++ rest)) := by
  rw [Expr.argument, List.cons_append, List.append_assoc]
  rfl

namespace Writes

variable {text text' : Text} {symbols symbols' : List Symbol}

/-- As the whole text, too, it is scanned as the symbols. -/
theorem symbols?_eq (h : Writes text symbols) : symbols? text = some symbols := by
  have hends : Ends [] := ⟨fun c hc => (by cases hc), by decide⟩
  have hsymbols := h [] hends
  rwa [List.append_nil, symbols?, Option.map_some, List.append_nil] at hsymbols

/-- A literal is one symbol. -/
theorem number {literal : Text} (h : Numeral.IsLiteral literal) : Writes literal [.number literal] := by
  intro rest hrest
  have hstops : (Symbol.number literal).Stops rest := ⟨h, hrest.1⟩
  exact symbols?_text_append hstops

/-- Two formulas with a symbol between spaces between them. -/
theorem between (symbol : Symbol) (hstops : ∀ rest, symbol.Stops (' ' :: rest))
    (h : Writes text symbols) (h' : Writes text' symbols') :
    Writes (text ++ ' ' :: (symbol.text ++ [' ']) ++ text') (symbols ++ symbol :: symbols') := by
  intro rest hrest
  have hspace : Ends (' ' :: (symbol.text ++ ' ' :: (text' ++ rest))) :=
    ends_cons _ (by decide) (by decide) (by decide)
  have hsymbol := symbols?_text_append (hstops (text' ++ rest))
  rw [symbols?_space, h' rest hrest] at hsymbol
  have hwhole := h _ hspace
  rw [symbols?_space, hsymbol] at hwhole
  simpa [Function.comp_def] using hwhole

theorem bracketed (h : Writes text symbols) :
    Writes (Expr.bracketed text) (.left :: (symbols ++ [.right])) := by
  intro rest _
  have hright : symbols? (Symbol.right.text ++ rest) = (symbols? rest).map (Symbol.right :: ·) :=
    symbols?_text_append trivial
  have hends : Ends (Symbol.right.text ++ rest) := ends_cons _ (by decide) (by decide) (by decide)
  have hleft : symbols? (Symbol.left.text ++ (text ++ (Symbol.right.text ++ rest))) =
      (symbols? (text ++ (Symbol.right.text ++ rest))).map (Symbol.left :: ·) :=
    symbols?_text_append trivial
  have htext : Expr.bracketed text ++ rest =
      Symbol.left.text ++ (text ++ (Symbol.right.text ++ rest)) := by
    change Symbol.left.text ++ text ++ Symbol.right.text ++ rest = _
    rw [List.append_assoc, List.append_assoc]
  rw [htext, hleft, h _ hends, hright]
  simp [Function.comp_def]

theorem bracketedIf (condition : Bool) (h : Writes text symbols) :
    Writes (Expr.bracketedIf condition text) (Expr.enclosedIf condition symbols) := by
  cases condition with
  | true => exact h.bracketed
  | false => exact h

/-- A formula up to the brace that closes the argument which it is. -/
theorem closed (h : Writes text symbols) {rest : Text} (hrest : Ends rest) :
    symbols? (text ++ (Symbol.close.text ++ rest)) =
      (symbols? rest).map (symbols ++ Symbol.close :: ·) := by
  have hclose : symbols? (Symbol.close.text ++ rest) = (symbols? rest).map (Symbol.close :: ·) :=
    symbols?_text_append hrest.2
  have hends : Ends (Symbol.close.text ++ rest) := ends_cons _ (by decide) (by decide) (by decide)
  rw [h _ hends, hclose, Option.map_map]
  rfl

/-- A fraction is its two parts between three symbols. -/
theorem fraction (h : Writes text symbols) (h' : Writes text' symbols') :
    Writes ("\\frac".toList ++ Expr.argument text ++ Expr.argument text')
      (.fraction :: (symbols ++ .bar :: (symbols' ++ [.close]))) := by
  intro rest hrest
  have hbar : symbols? (Symbol.bar.text ++ (text' ++ (Symbol.close.text ++ rest))) =
      (symbols? (text' ++ (Symbol.close.text ++ rest))).map (Symbol.bar :: ·) :=
    symbols?_text_append trivial
  have hends : Ends (Symbol.bar.text ++ (text' ++ (Symbol.close.text ++ rest))) :=
    ends_cons _ (by decide) (by decide) (by decide)
  have hfraction := @symbols?_text_append .fraction
    (text ++ (Symbol.bar.text ++ (text' ++ (Symbol.close.text ++ rest)))) trivial
  have htext : "\\frac".toList ++ Expr.argument text ++ Expr.argument text' ++ rest =
      Symbol.fraction.text ++
        (text ++ (Symbol.bar.text ++ (text' ++ (Symbol.close.text ++ rest)))) := by
    calc "\\frac".toList ++ Expr.argument text ++ Expr.argument text' ++ rest
        = "\\frac".toList ++ (Expr.argument text ++ (Expr.argument text' ++ rest)) :=
          (List.append_assoc _ _ _).trans (List.append_assoc _ _ _)
      _ = _ := by
          rw [argument_append text', argument_append text]
          rfl
  rw [htext, hfraction, h _ hends, hbar, h'.closed hrest]
  simp [Function.comp_def]

/-- A power is its base, and its exponent between two symbols. -/
theorem power (h : Writes text symbols) (h' : Writes text' symbols') :
    Writes (text ++ '^' :: Expr.argument text') (symbols ++ .power :: (symbols' ++ [.close])) := by
  intro rest hrest
  have hpower : symbols? (Symbol.power.text ++ (text' ++ (Symbol.close.text ++ rest))) =
      (symbols? (text' ++ (Symbol.close.text ++ rest))).map (Symbol.power :: ·) :=
    symbols?_text_append trivial
  have hends : Ends (Symbol.power.text ++ (text' ++ (Symbol.close.text ++ rest))) :=
    ends_cons _ (by decide) (by decide) (by decide)
  have htext : text ++ '^' :: Expr.argument text' ++ rest =
      text ++ (Symbol.power.text ++ (text' ++ (Symbol.close.text ++ rest))) := by
    rw [List.append_assoc, List.cons_append, argument_append]
    rfl
  rw [htext, h _ hends, hpower, h'.closed hrest]
  simp [Function.comp_def]

end Writes

end Latex

namespace Expr

/-- The LaTeX form is scanned as the symbols of the expression if that holds of its numbers. -/
theorem writes_symbolsWith {leaf : Binary64 → List Symbol} {t : Expr}
    (h : t.All fun x => Latex.Writes x.latex (leaf x)) :
    Latex.Writes t.latex (t.symbolsWith leaf) := by
  induction t with
  | number x => exact h
  | binary left op right ihleft ihright =>
      have hleft := ihleft h.1
      have hright := ihright h.2
      cases op with
      | add => exact hleft.between (.sign .plus) (fun _ => trivial) hright
      | sub => exact hleft.between (.sign .minus) (fun _ => trivial) (hright.bracketedIf right.isSum)
      | mul =>
          exact (hleft.bracketedIf left.isSum).between .times (fun _ => trivial)
            (hright.bracketedIf right.isSum)
      | div => exact hleft.fraction hright
      | pow => exact (hleft.bracketedIf (!left.isNumber)).power hright

/-- The LaTeX form is scanned as the symbols of the expression if its numbers are plain. -/
theorem writes_latex {t : Expr} (h : t.Plain) : Latex.Writes t.latex t.symbols :=
  writes_symbolsWith (h.all.mono fun _ hx => .number (Binary64.read?_latex hx.1 hx.2).1)

/-! ### Chains grouped to the left -/

/-- One step of grouping a chain to the left, anywhere in the expression. -/
inductive Regroups : Expr → Expr → Prop where
  | add_add (a b c : Expr) :
      Regroups (binary a .add (binary b .add c)) (binary (binary a .add b) .add c)
  | add_sub (a b c : Expr) :
      Regroups (binary a .add (binary b .sub c)) (binary (binary a .add b) .sub c)
  | mul_mul (a b c : Expr) :
      Regroups (binary a .mul (binary b .mul c)) (binary (binary a .mul b) .mul c)
  | left {a a' : Expr} (op : Operator) (b : Expr) :
      Regroups a a' → Regroups (binary a op b) (binary a' op b)
  | right {b b' : Expr} (a : Expr) (op : Operator) :
      Regroups b b' → Regroups (binary a op b) (binary a op b')

/-- Chains may be grouped in both operands. -/
theorem regroups_binary {a a' b b' : Expr} (op : Operator) (ha : ReflTransGen Regroups a a')
    (hb : ReflTransGen Regroups b b') :
    ReflTransGen Regroups (binary a op b) (binary a' op b') := by
  have hleft : ReflTransGen Regroups (binary a op b) (binary a' op b) :=
    ha.lift (binary · op b) fun _ _ => .left op b
  have hright : ReflTransGen Regroups (binary a' op b) (binary a' op b') :=
    hb.lift (binary a' op ·) fun _ _ => .right a' op
  exact hleft.trans hright

end Expr

/-- What numbers and operators stand for. -/
structure Interpretation (α : Type*) where
  number : Binary64 → α
  apply : Operator → α → α → α

/-- Chains of sums and of products may be grouped to the left. Nothing is said of division and powers,
    nor of any other law. -/
structure Interpretation.Associates {α : Type*} (I : Interpretation α) : Prop where
  add_add (a b c : α) : I.apply .add a (I.apply .add b c) = I.apply .add (I.apply .add a b) c
  add_sub (a b c : α) : I.apply .add a (I.apply .sub b c) = I.apply .sub (I.apply .add a b) c
  mul_mul (a b c : α) : I.apply .mul a (I.apply .mul b c) = I.apply .mul (I.apply .mul a b) c

namespace Expr

/-- The value of an expression in an interpretation. -/
def meaning {α : Type*} (I : Interpretation α) : Expr → α
  | number x => I.number x
  | binary left op right => I.apply op (left.meaning I) (right.meaning I)

/-- A step of grouping keeps the value. -/
theorem Regroups.meaning_eq {α : Type*} {I : Interpretation α} (hI : I.Associates) {t u : Expr}
    (h : Regroups t u) : t.meaning I = u.meaning I := by
  induction h with
  | add_add a b c => exact hI.add_add _ _ _
  | add_sub a b c => exact hI.add_sub _ _ _
  | mul_mul a b c => exact hI.mul_mul _ _ _
  | left op b _ ih => rw [meaning, meaning, ih]
  | right a op _ ih => rw [meaning, meaning, ih]

/-- Any number of steps keeps the value. -/
theorem meaning_eq_of_regroups {α : Type*} {I : Interpretation α} (hI : I.Associates) {t u : Expr}
    (h : ReflTransGen Regroups t u) : t.meaning I = u.meaning I := by
  induction h with
  | refl => rfl
  | tail _ hstep ih => exact ih.trans (hstep.meaning_eq hI)

end Expr

/-! ### Reading the symbols of an expression

What a chain is read as depends on the grammar, and how the result is compared with the expression on
what is wanted of it: by steps of grouping, or by its value. So the chains are followed once, for any
convention on numbers and for any relation that lets them be grouped to the left. -/

section Chains

variable {α : Type} {C : Convention α} {R : α → α → Prop}

/-- The relation lets chains be grouped to the left, and it may be used inside of operations. -/
structure Latex.Convention.Regrouping (C : Convention α) (R : α → α → Prop) : Prop where
  refl (r : α) : R r r
  trans {r s t : α} : R r s → R s t → R r t
  binary {r r' s s' : α} (op : Operator) : R r r' → R s s' → R (C.binary r op s) (C.binary r' op s')
  add_add (r s t : α) :
    R (C.binary r .add (C.binary s .add t)) (C.binary (C.binary r .add s) .add t)
  add_sub (r s t : α) :
    R (C.binary r .add (C.binary s .sub t)) (C.binary (C.binary r .add s) .sub t)
  mul_mul (r s t : α) :
    R (C.binary r .mul (C.binary s .mul t)) (C.binary (C.binary r .mul s) .mul t)

namespace Latex.Convention.Derives

variable {symbols symbols' : List Symbol} {r s : α}

/-- A sum behind a plus sign goes on with the sum before it, term by term. -/
theorem add (hR : C.Regrouping R) (h : C.Derives .sum symbols r) (h' : C.Derives .sum symbols' s) :
    ∃ u, C.Derives .sum (symbols ++ .sign .plus :: symbols') u ∧ R (C.binary r .add s) u := by
  generalize hphrase : Phrase.sum = phrase at h'
  induction h' with
  | product hproduct _ => exact ⟨_, .sum .plus h hproduct, hR.refl _⟩
  | @sum before behind left right sign _ hproduct ih _ =>
      obtain ⟨u, hu, hleft⟩ := ih hphrase
      refine ⟨C.binary u sign.operator right, ?_, ?_⟩
      · simpa using Derives.sum sign hu hproduct
      · have hstep : R (C.binary r .add (C.binary left sign.operator right))
            (C.binary (C.binary r .add left) sign.operator right) := by
          cases sign with
          | plus => exact hR.add_add r left right
          | minus => exact hR.add_sub r left right
        exact hR.trans hstep (hR.binary _ hleft (hR.refl right))
  | _ => cases hphrase

/-- A product behind a sign of multiplication goes on with the product before it. -/
theorem mul (hR : C.Regrouping R) (h : C.Derives .product symbols r)
    (h' : C.Derives .product symbols' s) :
    ∃ u, C.Derives .product (symbols ++ .times :: symbols') u ∧ R (C.binary r .mul s) u := by
  generalize hphrase : Phrase.product = phrase at h'
  induction h' with
  | factor hfactor _ => exact ⟨_, .times h hfactor, hR.refl _⟩
  | @times before behind left right _ hfactor ih _ =>
      obtain ⟨u, hu, hleft⟩ := ih hphrase
      refine ⟨C.binary u .mul right, ?_, ?_⟩
      · simpa using Derives.times hu hfactor
      · exact hR.trans (hR.mul_mul r left right) (hR.binary _ hleft (hR.refl right))
  | _ => cases hphrase

end Latex.Convention.Derives

namespace Expr

/-- The phrase as which the LaTeX form of an expression is read. A number is a factor and may be no base,
    since it can have a sign. -/
def phrase : Expr → Phrase
  | number _ => .factor
  | binary _ op _ =>
      match op with
      | .add | .sub => .sum
      | .mul => .product
      | .div | .pow => .factor

/-- Brackets around sums make a product of any form. -/
theorem derives_product {t : Expr} {r : α} {symbols : List Symbol} (h : C.Derives t.phrase symbols r) :
    C.Derives .product (enclosedIf t.isSum symbols) r := by
  cases t with
  | number x => exact .factor h
  | binary left op right =>
      cases op with
      | add => exact .factor (.base (.bracket h))
      | sub => exact .factor (.base (.bracket h))
      | mul => exact h
      | div => exact .factor h
      | pow => exact .factor h

/-- With the symbols of its numbers given by `leaf`, an expression is to be read as `shown` of it, up to
    the relation. Operations are shown as they are. A number with the property can be read from its
    symbols, and so can a power of it, where a sign in front of the number is that of the power. -/
structure Shows (C : Convention α) (R : α → α → Prop) (leaf : Binary64 → List Symbol)
    (shown : Expr → α) (p : Binary64 → Prop) : Prop where
  number {x : Binary64} : p x → C.Derives .factor (leaf x) (shown (.number x))
  power {x : Binary64} {right : Expr} {exponent : List Symbol} {s : α} :
    p x → C.Derives .sum exponent s → R (shown right) s →
      ∃ u, C.Derives .factor (leaf x ++ .power :: (exponent ++ [.close])) u ∧
        R (shown (.binary (.number x) .pow right)) u
  binary {left right : Expr} {op : Operator} : (left.isNumber = true → op ≠ .pow) →
    shown (.binary left op right) = C.binary (shown left) op (shown right)

/-- The symbols of an expression are read as what it shows, up to the grouping of chains. -/
theorem exists_derives {leaf : Binary64 → List Symbol} {shown : Expr → α} {p : Binary64 → Prop}
    (hR : C.Regrouping R) (hshows : Shows C R leaf shown p) {t : Expr} (h : t.All p) :
    ∃ r, C.Derives t.phrase (t.symbolsWith leaf) r ∧ R (shown t) r := by
  induction t with
  | number x => exact ⟨_, hshows.number h, hR.refl _⟩
  | binary left op right ihleft ihright =>
      obtain ⟨r, hr, hleft⟩ := ihleft h.1
      obtain ⟨s, hs, hright⟩ := ihright h.2
      have hoperands (hbase : left.isNumber = true → op ≠ .pow) :
          R (shown (.binary left op right)) (C.binary r op s) := by
        rw [hshows.binary hbase]
        exact hR.binary op hleft hright
      cases op with
      | add =>
          obtain ⟨u, hu, hsteps⟩ := hr.toSum.add hR hs.toSum
          exact ⟨u, hu, hR.trans (hoperands fun _ => nofun) hsteps⟩
      | sub => exact ⟨_, .sum .minus hr.toSum (derives_product hs), hoperands fun _ => nofun⟩
      | mul =>
          obtain ⟨u, hu, hsteps⟩ := (derives_product hr).mul hR (derives_product hs)
          exact ⟨u, hu, hR.trans (hoperands fun _ => nofun) hsteps⟩
      | div => exact ⟨_, .fraction hr.toSum hs.toSum, hoperands fun _ => nofun⟩
      | pow =>
          cases left with
          | number x => exact hshows.power h.1 hs.toSum hright
          | binary left' op' right' =>
              exact ⟨_, .power (.bracket hr.toSum) hs.toSum, hoperands nofun⟩

end Expr

end Chains

namespace Expr

/-- Steps of grouping are such a relation. -/
theorem regrouping_regroups : conventional.Regrouping (ReflTransGen Regroups) where
  refl _ := .refl
  trans := .trans
  binary op := regroups_binary op
  add_add a b c := .single (.add_add a b c)
  add_sub a b c := .single (.add_sub a b c)
  mul_mul a b c := .single (.mul_mul a b c)

/-- Where numbers have no sign, an expression with plain numbers shows as itself. -/
theorem shows_self : Shows conventional (ReflTransGen Regroups) (fun x => [.number x.latex]) id
    fun x => x.isFinite = true ∧ x.negative = false where
  number h := by
    obtain ⟨hliteral, hread⟩ := Binary64.read?_latex h.1 h.2
    exact .base (.number hliteral hread)
  power {x right exponent s} h hs hright := by
    obtain ⟨hliteral, hread⟩ := Binary64.read?_latex h.1 h.2
    exact ⟨.binary (.number x) .pow s, .power (.number hliteral hread) hs,
      regroups_binary .pow .refl hright⟩
  binary _ := rfl

/-- The LaTeX form of an expression with plain numbers is a formula, and it is read as the expression with
    its chains grouped to the left. -/
theorem exists_reads {t : Expr} (h : t.Plain) :
    ∃ u, conventional.Reads t.latex u ∧ ReflTransGen Regroups t u := by
  obtain ⟨u, hu, hsteps⟩ := exists_derives regrouping_regroups shows_self h.all
  exact ⟨u, ⟨t.symbols, (writes_latex h).symbols?_eq, hu.toSum⟩, hsteps⟩

/-- The LaTeX form of an expression with plain numbers is a formula. It is read as one expression only,
    which is the expression itself with some chains grouped to the left, so both have the same value
    wherever such chains associate. Every expression that is read from a text has plain numbers. -/
theorem latex_reads_regrouped (t : Expr) :
    (∀ limits text, Parse.parse limits text = .ok t → t.Plain) ∧
      (t.Plain → ∃ u, (∀ v, conventional.Reads t.latex v ↔ v = u) ∧ ReflTransGen Regroups t u ∧
        ∀ {α : Type*} (I : Interpretation α), I.Associates → t.meaning I = u.meaning I) := by
  refine ⟨fun limits text hparse => plain_of_parse hparse, ?_⟩
  intro hplain
  obtain ⟨u, hreads, hsteps⟩ := exists_reads hplain
  exact ⟨u, hreads.iff_eq, hsteps, fun I hI => meaning_eq_of_regroups hI hsteps⟩

/-- The form of `2+(3-4*(5*6))` has no brackets left, and its value over the integers is that of the
    expression. -/
theorem latex_reads_chain :
    ∃ t u, Parse.parse {} "2+(3-4*(5*6))".toList = .ok t ∧ t.Plain ∧
      t.latex = "2 + 3 - 4 \\cdot 5 \\cdot 6".toList ∧
      (∀ v, conventional.Reads t.latex v ↔ v = u) ∧
      ReflTransGen Regroups t u ∧ ∃ I : Interpretation Int, I.Associates ∧ t.meaning I = u.meaning I := by
  have hparse : Parse.parse {} "2+(3-4*(5*6))".toList =
      .ok (.binary (.number (.ofBits 0x4000000000000000)) .add
        (.binary (.number (.ofBits 0x4008000000000000)) .sub
          (.binary (.number (.ofBits 0x4010000000000000)) .mul
            (.binary (.number (.ofBits 0x4014000000000000)) .mul
              (.number (.ofBits 0x4018000000000000)))))) := by decide +kernel
  let I : Interpretation Int :=
    { number := fun x => x.magnitude
      apply := fun
        | .add => (· + ·)
        | .sub => (· - ·)
        | .mul => (· * ·)
        | .div | .pow => fun _ _ => 0 }
  have hI : I.Associates :=
    ⟨fun a b c => (Int.add_assoc a b c).symm, fun a b c => (Int.add_sub_assoc a b c).symm,
      fun a b c => (Int.mul_assoc a b c).symm⟩
  obtain ⟨hplain, hlatex⟩ := latex_reads_regrouped _
  obtain ⟨u, hu, hsteps, hmeaning⟩ := hlatex (hplain _ _ hparse)
  exact ⟨_, u, hparse, hplain _ _ hparse, by decide +kernel, hu, hsteps, I, hI, hmeaning I hI⟩

end Expr

end Calculator
