/-
Module: Calculator.Proofs.UniqueForm
Layer: Proofs
Purpose: Canonical forms tell all expressions apart, also those whose forms are never read back: numbers
  may have a sign, be infinite or be none at all. The text of a number holds neither a space nor a
  bracket, so it ends where one of these stands, and a form in brackets ends where its two operands
  have ended: the operand in front is followed by a space, the one behind by the closing bracket.
  Whatever stands behind a form, the expression and the rest are both determined. What is no number
  has one text, and so such numbers count as the same.
Imports: Calculator.Proofs.SignedNumber
Trusted boundary: none (fully proved)
Main exports: Binary64.Alike, Binary64.toText_eq_iff, Expr.Alike, Expr.alike_of_canonical_append,
  Expr.canonical_eq_iff_alike
-/
import Calculator.Proofs.SignedNumber

namespace Calculator

/-! ### Texts of numbers -/

namespace Binary64

/-- The same word, or both of them no numbers. -/
def Alike (x y : Binary64) : Prop := x = y ∨ x.isNaN = true ∧ y.isNaN = true

theorem toText_of_isNaN {x : Binary64} (h : x.isNaN = true) : x.toText = "NaN".toList := by
  rw [toText, if_pos h]
  rfl

theorem magnitude_eq_infinity {x : Binary64} (hfinite : x.isFinite = false) (hnan : x.isNaN = false) :
    x.magnitude = infinity :=
  Nat.le_antisymm (Nat.not_lt.1 (of_decide_eq_false hnan)) (Nat.not_lt.1 (of_decide_eq_false hfinite))

/-- Infinities are told apart by their sign only. -/
theorem toText_of_infinite {x : Binary64} (hfinite : x.isFinite = false) (hnan : x.isNaN = false) :
    x.toText = if x.negative then "-inf".toList else "inf".toList := by
  simp only [toText, hnan, magnitudeText, magnitude_eq_infinity hfinite hnan, if_true]
  rfl

/-- Only the texts of finite numbers are literals, signed or not. -/
theorem read?_toText_eq_none {x : Binary64} (h : x.isFinite = false) :
    Numeral.read? x.toText = none := by
  cases hnan : x.isNaN with
  | true =>
      rw [toText_of_isNaN hnan]
      decide +kernel
  | false =>
      rw [toText_of_infinite h hnan]
      cases x.negative <;> decide +kernel

/-- Numbers that are not finite are told apart by their texts, too. -/
theorem alike_of_toText_eq {x y : Binary64} (hx : x.isFinite = false) (hy : y.isFinite = false)
    (h : x.toText = y.toText) : x.Alike y := by
  cases hnan : x.isNaN with
  | true =>
      cases hnan' : y.isNaN with
      | true => exact Or.inr ⟨hnan, hnan'⟩
      | false =>
          rw [toText_of_isNaN hnan, toText_of_infinite hy hnan'] at h
          cases hsign : y.negative <;> simp [hsign] at h
  | false =>
      cases hnan' : y.isNaN with
      | true =>
          rw [toText_of_infinite hx hnan, toText_of_isNaN hnan'] at h
          cases hsign : x.negative <;> simp [hsign] at h
      | false =>
          have hmagnitude := magnitude_eq_infinity hx hnan
          have hmagnitude' := magnitude_eq_infinity hy hnan'
          rw [toText_of_infinite hx hnan, toText_of_infinite hy hnan'] at h
          have hsign : x.negative = y.negative := by
            cases hx' : x.negative <;> cases hy' : y.negative <;> simp [hx', hy'] at h ⊢
          obtain ⟨negative, magnitude, bounded⟩ := x
          obtain ⟨negative', magnitude', bounded'⟩ := y
          subst hmagnitude hmagnitude' hsign
          exact Or.inl rfl

/-- Two doubles have one text exactly if they are the same or both no numbers. -/
theorem toText_eq_iff {x y : Binary64} : x.toText = y.toText ↔ x.Alike y := by
  constructor
  · intro h
    have hread := congrArg Numeral.read? h
    cases hx : x.isFinite with
    | true =>
        cases hy : y.isFinite with
        | true =>
            rw [read?_toText_of_isFinite hx, read?_toText_of_isFinite hy] at hread
            exact Or.inl (Option.some.inj hread)
        | false =>
            rw [read?_toText_of_isFinite hx, read?_toText_eq_none hy] at hread
            cases hread
    | false =>
        cases hy : y.isFinite with
        | true =>
            rw [read?_toText_eq_none hx, read?_toText_of_isFinite hy] at hread
            cases hread
        | false => exact alike_of_toText_eq hx hy h
  · rintro (rfl | ⟨hx, hy⟩)
    · rfl
    · rw [toText_of_isNaN hx, toText_of_isNaN hy]

end Binary64

/-! ### Where the text of a number ends -/

namespace Text

/-- Whether a character ends the text of a number. -/
def isDelimiter (c : Char) : Bool := c = ' ' || c = '(' || c = ')'

/-- The text is empty or goes on with a delimiter. -/
def Delimited (rest : Text) : Prop := ∀ c ∈ rest.head?, isDelimiter c = true

theorem delimited_nil : Delimited [] := by
  intro c hc
  cases hc

theorem delimited_cons {c : Char} (rest : Text) (h : isDelimiter c = true) : Delimited (c :: rest) := by
  intro d hd
  cases hd
  exact h

/-- Two texts without delimiters, in front of delimiters, are cut off alike. -/
theorem append_inj_of_delimited {word word' rest rest' : Text}
    (hword : ∀ c ∈ word, isDelimiter c = false) (hword' : ∀ c ∈ word', isDelimiter c = false)
    (hrest : Delimited rest) (hrest' : Delimited rest') (h : word ++ rest = word' ++ rest') :
    word = word' ∧ rest = rest' := by
  have htake {w r : Text} (hw : ∀ c ∈ w, isDelimiter c = false) (hr : Delimited r) :
      (w ++ r).takeWhile (!isDelimiter ·) = w := by
    have hhead : ∀ c ∈ r.head?, (!isDelimiter c) = false := by
      intro c hc
      rw [hr c hc]
      rfl
    rw [(takeWhile_append_of_head _ hhead w).1, List.takeWhile_eq_self_iff]
    intro c hc
    rw [hw c hc]
    rfl
  have hwords : word = word' := by rw [← htake hword hrest, h, htake hword' hrest']
  subst hwords
  exact ⟨rfl, List.append_cancel_left h⟩

end Text

namespace Binary64

open Text (isDelimiter)

theorem isDelimiter_magnitudeText {magnitude : Nat} :
    ∀ c ∈ magnitudeText magnitude, isDelimiter c = false := by
  rcases magnitudeText_eq magnitude with h | h
  · simp [h, isDelimiter]
  · intro c hc
    cases hdelimiter : isDelimiter c with
    | false => rfl
    | true =>
        simp only [isDelimiter, Bool.or_eq_true, decide_eq_true_eq, or_assoc] at hdelimiter
        rcases hdelimiter with rfl | rfl | rfl <;> exact absurd (h.forall_mem _ hc) (by decide)

/-- The text of a number holds no character that could end it. -/
theorem isDelimiter_toText (x : Binary64) : ∀ c ∈ x.toText, isDelimiter c = false := by
  unfold toText
  split
  · simp [isDelimiter]
  · split
    · intro c hc
      rcases List.mem_cons.1 hc with rfl | hc
      · decide
      · exact isDelimiter_magnitudeText c hc
    · exact isDelimiter_magnitudeText

/-- Every number has a text. -/
theorem toText_ne_nil (x : Binary64) : x.toText ≠ [] := by
  unfold toText
  split
  · exact List.cons_ne_nil _ _
  · split
    · exact List.cons_ne_nil _ _
    · rcases magnitudeText_eq x.magnitude with h | h
      · rw [h]
        exact List.cons_ne_nil _ _
      · obtain ⟨c, rest, hliteral, -⟩ := h.head
        rw [hliteral]
        exact List.cons_ne_nil _ _

end Binary64

/-! ### Forms of expressions -/

namespace Expr

open Text (Delimited delimited_nil delimited_cons isDelimiter)

/-- The same shape with the same operators, and numbers that are alike at the leaves. -/
def Alike : Expr → Expr → Prop
  | number x, number y => x.Alike y
  | binary left op right, binary left' op' right' => left.Alike left' ∧ op = op' ∧ right.Alike right'
  | _, _ => False

/-- No number starts with a bracket. -/
theorem toText_append_ne {x : Binary64} {rest : Text} (hrest : Delimited rest) (text : Text) :
    x.toText ++ rest ≠ '(' :: text := by
  intro h
  have hopen : Delimited ('(' :: text) := delimited_cons text (by decide)
  rw [← List.nil_append ('(' :: text)] at h
  obtain ⟨hnil, -⟩ :=
    Text.append_inj_of_delimited x.isDelimiter_toText (List.forall_mem_nil _) hrest hopen h
  exact x.toText_ne_nil hnil

/-- Whatever stands behind two forms, equal texts have forms of expressions that are alike, and the same
    rest behind them. -/
theorem alike_of_canonical_append {t u : Expr} {rest rest' : Text} (hrest : Delimited rest)
    (hrest' : Delimited rest') (h : t.canonical ++ rest = u.canonical ++ rest') :
    t.Alike u ∧ rest = rest' := by
  induction t generalizing u rest rest' with
  | number x =>
      cases u with
      | number y =>
          obtain ⟨htext, hrests⟩ := Text.append_inj_of_delimited x.isDelimiter_toText
            y.isDelimiter_toText hrest hrest' h
          exact ⟨Binary64.toText_eq_iff.1 htext, hrests⟩
      | binary left op right => exact absurd h (toText_append_ne hrest _)
  | binary left op right ihleft ihright =>
      cases u with
      | number y => exact absurd h.symm (toText_append_ne hrest' _)
      | binary left' op' right' =>
          simp only [canonical, List.cons_append, List.append_assoc, List.nil_append,
            List.cons.injEq, true_and] at h
          -- A space follows the operand in front, and a bracket the one behind.
          have hspace (text : Text) : Delimited (' ' :: text) := delimited_cons text (by decide)
          have hclose (text : Text) : Delimited (')' :: text) := delimited_cons text (by decide)
          obtain ⟨hleft, hbehind⟩ := ihleft (hspace _) (hspace _) h
          simp only [List.cons.injEq, true_and] at hbehind
          obtain ⟨hsymbol, hbehind⟩ := hbehind
          obtain ⟨hright, hrests⟩ := ihright (hclose _) (hclose _) hbehind
          refine ⟨⟨hleft, ?_, hright⟩, (List.cons.inj hrests).2⟩
          have hop := congrArg Operator.ofSymbol? hsymbol
          rw [Operator.ofSymbol?_symbol, Operator.ofSymbol?_symbol] at hop
          exact Option.some.inj hop

/-- Expressions that are alike have the same canonical form. -/
theorem Alike.canonical_eq {t u : Expr} (h : t.Alike u) : t.canonical = u.canonical := by
  induction t generalizing u with
  | number x =>
      cases u with
      | number y => exact Binary64.toText_eq_iff.2 h
      | binary left op right => cases h
  | binary left op right ihleft ihright =>
      cases u with
      | number y => cases h
      | binary left' op' right' =>
          obtain ⟨hleft, rfl, hright⟩ := h
          rw [canonical, canonical, ihleft hleft, ihright hright]

/-- Two expressions have one canonical form exactly if they have the same shape, the same operators and
    the same numbers, bit for bit, where all that is no number counts as the same. -/
theorem canonical_eq_iff_alike (t u : Expr) : t.canonical = u.canonical ↔ t.Alike u := by
  constructor
  · intro h
    have happend : t.canonical ++ [] = u.canonical ++ [] := congrArg (· ++ []) h
    exact (alike_of_canonical_append delimited_nil delimited_nil happend).1
  · exact Alike.canonical_eq

end Expr

end Calculator
