/-
Module: Calculator.Proofs.Literal
Layer: Proofs
Purpose: Plain literals, digits with an optional fraction. The scanner cuts exactly such a literal
  off a text whose rest does not lengthen it, and the reader of literals takes each of them apart
  into its digits: no sign, no exponent.
Imports: Calculator.Numeral, Mathlib.Data.List.TakeWhile
Trusted boundary: none (fully proved)
Main exports: Numeral.IsRow, Numeral.IsLiteral, Numeral.Ends, Numeral.takeLiteral_append_of_ends,
  Numeral.isLiteral_of_takeLiteral, Numeral.ofText?_whole, Numeral.ofText?_pointed
-/
import Calculator.Numeral
import Mathlib.Data.List.TakeWhile

namespace Calculator

/-- What a text starts with ends inside its first part if the second part does not go on with it. -/
theorem Text.takeWhile_append_of_head (p : Char → Bool) {rest : Text}
    (h : ∀ c ∈ rest.head?, p c = false) (text : Text) :
    (text ++ rest).takeWhile p = text.takeWhile p ∧
      (text ++ rest).dropWhile p = text.dropWhile p ++ rest := by
  induction text with
  | nil =>
      cases rest with
      | nil => exact ⟨rfl, rfl⟩
      | cons c rest => simp [h c rfl]
  | cons c text ih =>
      cases hc : p c with
      | true => simpa [hc] using ih
      | false => simp [hc]

namespace Numeral

/-- One or more digits. -/
def IsRow (digits : Text) : Prop := digits ≠ [] ∧ ∀ c ∈ digits, c.isDigit = true

/-- A plain literal: digits, and possibly a point with digits behind it. -/
inductive IsLiteral : Text → Prop where
  | whole {digits : Text} : IsRow digits → IsLiteral digits
  | pointed {whole fraction : Text} :
      IsRow whole → IsRow fraction → IsLiteral (whole ++ '.' :: fraction)

/-- No literal in front of such a text could go on into it. -/
def Ends (rest : Text) : Prop := ∀ c ∈ rest.head?, c.isDigit = false ∧ c ≠ '.'

/-- Behind a literal, any character but a digit or a point ends it. -/
theorem ends_cons {c : Char} (rest : Text) (hdigit : c.isDigit = false) (hpoint : c ≠ '.') :
    Ends (c :: rest) := by
  intro d hd
  cases hd
  exact ⟨hdigit, hpoint⟩

/-! ### Rows of digits -/

/-- Digits in front of a text are digits that it starts with. -/
theorem leadingDigits_append {digits : Text} (h : ∀ c ∈ digits, c.isDigit = true) (rest : Text) :
    leadingDigits (digits ++ rest) = digits ++ leadingDigits rest :=
  List.takeWhile_append_of_pos h

/-- Digits in front of a text are skipped. -/
theorem skipDigits_append {digits : Text} (h : ∀ c ∈ digits, c.isDigit = true) (rest : Text) :
    skipDigits (digits ++ rest) = skipDigits rest :=
  List.dropWhile_append_of_pos h

theorem leadingDigits_cons {c : Char} (rest : Text) (h : c.isDigit = false) :
    leadingDigits (c :: rest) = [] := by
  rw [leadingDigits, List.takeWhile_cons, h]
  rfl

theorem skipDigits_cons {c : Char} (rest : Text) (h : c.isDigit = false) :
    skipDigits (c :: rest) = c :: rest := by
  rw [skipDigits, List.dropWhile_cons, h]
  rfl

/-- The digits before a point are cut off at the point. -/
theorem leadingDigits_pointed {whole : Text} (h : ∀ c ∈ whole, c.isDigit = true) (rest : Text) :
    leadingDigits (whole ++ '.' :: rest) = whole := by
  rw [leadingDigits_append h, leadingDigits_cons rest rfl, List.append_nil]

/-- What is skipped before a point leaves the point and all that follows it. -/
theorem skipDigits_pointed {whole : Text} (h : ∀ c ∈ whole, c.isDigit = true) (rest : Text) :
    skipDigits (whole ++ '.' :: rest) = '.' :: rest := by
  rw [skipDigits_append h, skipDigits_cons rest rfl]

/-- Where a literal ends, no digits follow. -/
theorem leadingDigits_of_ends {rest : Text} (h : Ends rest) : leadingDigits rest = [] := by
  cases rest with
  | nil => rfl
  | cons c tail => exact leadingDigits_cons tail (h c rfl).1

/-- Where a literal ends, nothing is skipped. -/
theorem skipDigits_of_ends {rest : Text} (h : Ends rest) : skipDigits rest = rest := by
  cases rest with
  | nil => rfl
  | cons c tail => exact skipDigits_cons tail (h c rfl).1

theorem isDigit_of_mem_leadingDigits {text : Text} {c : Char} (h : c ∈ leadingDigits text) :
    c.isDigit = true :=
  List.mem_takeWhile_imp h

/-- The first character behind a row of digits is no digit. -/
theorem isDigit_head?_skipDigits {text : Text} {c : Char} (h : c ∈ (skipDigits text).head?) :
    c.isDigit = false := by
  induction text with
  | nil => cases h
  | cons d rest ih =>
      cases hd : d.isDigit with
      | true =>
          rw [skipDigits, List.dropWhile_cons, hd] at h
          exact ih h
      | false =>
          rw [skipDigits_cons rest hd] at h
          cases h
          exact hd

/-- A row has a first digit. -/
theorem IsRow.head {digits : Text} (h : IsRow digits) :
    ∃ c rest, digits = c :: rest ∧ c.isDigit = true := by
  obtain ⟨hne, hall⟩ := h
  cases digits with
  | nil => exact absurd rfl hne
  | cons c rest => exact ⟨c, rest, rfl, hall c List.mem_cons_self⟩

theorem isRow_singleton {c : Char} (h : c.isDigit = true) : IsRow [c] := by
  refine ⟨List.cons_ne_nil c [], ?_⟩
  intro d hd
  rwa [List.mem_singleton.1 hd]

/-- The digits that a text starts with are a row, unless there are none. -/
theorem isRow_leadingDigits {text : Text} (h : leadingDigits text ≠ []) :
    IsRow (leadingDigits text) :=
  ⟨h, fun _ => isDigit_of_mem_leadingDigits⟩

/-! ### Cutting a literal off -/

/-- A literal starts with a digit, never with a sign or a point. -/
theorem IsLiteral.head {literal : Text} (h : IsLiteral literal) :
    ∃ c rest, literal = c :: rest ∧ c.isDigit = true := by
  cases h with
  | whole hrow => exact hrow.head
  | pointed hwhole _ =>
      obtain ⟨c, rest, rfl, hc⟩ := hwhole.head
      exact ⟨c, _, rfl, hc⟩

/-- A literal holds digits and points only. -/
theorem IsLiteral.forall_mem {literal : Text} (h : IsLiteral literal) :
    ∀ c ∈ literal, c.isDigit = true ∨ c = '.' := by
  intro c hc
  cases h with
  | whole hrow => exact Or.inl (hrow.2 c hc)
  | pointed hwhole hfraction =>
      rcases List.mem_append.1 hc with hc | hc
      · exact Or.inl (hwhole.2 c hc)
      · rcases List.mem_cons.1 hc with hc | hc
        · exact Or.inr hc
        · exact Or.inl (hfraction.2 c hc)

/-- A literal is cut off whole if what follows does not lengthen it. -/
theorem takeLiteral_append_of_ends {literal rest : Text} (h : IsLiteral literal) (hrest : Ends rest) :
    takeLiteral (literal ++ rest) = (literal, rest) := by
  cases h with
  | whole hrow =>
      have hlead : leadingDigits (literal ++ rest) = literal := by
        rw [leadingDigits_append hrow.2, leadingDigits_of_ends hrest, List.append_nil]
      have hskip : skipDigits (literal ++ rest) = rest := by
        rw [skipDigits_append hrow.2, skipDigits_of_ends hrest]
      simp only [takeLiteral, hlead, hskip, List.isEmpty_iff, hrow.1, if_false]
      split
      · exact absurd rfl (hrest '.' rfl).2
      · rfl
  | @pointed whole fraction hwhole hfraction =>
      have hlead := leadingDigits_pointed hwhole.2 (fraction ++ rest)
      have hskip := skipDigits_pointed hwhole.2 (fraction ++ rest)
      have hfrac : leadingDigits (fraction ++ rest) = fraction := by
        rw [leadingDigits_append hfraction.2, leadingDigits_of_ends hrest, List.append_nil]
      have htail : skipDigits (fraction ++ rest) = rest := by
        rw [skipDigits_append hfraction.2, skipDigits_of_ends hrest]
      rw [List.append_assoc, List.cons_append]
      simp only [takeLiteral, hlead, hskip, hfrac, htail, List.isEmpty_iff, hwhole.1, hfraction.1,
        if_false]

/-- What is cut off is a literal, and no digit follows it. -/
theorem isLiteral_of_takeLiteral {text literal rest : Text} (h : takeLiteral text = (literal, rest))
    (hne : literal ≠ []) :
    IsLiteral literal ∧ ∀ c ∈ rest.head?, c.isDigit = false := by
  unfold takeLiteral at h
  simp only [List.isEmpty_iff] at h
  split at h
  · cases h
    exact absurd rfl hne
  · rename_i hwhole
    split at h
    · rename_i tail htail
      split at h
      · cases h
        exact ⟨.whole (isRow_leadingDigits hwhole), fun _ => isDigit_head?_skipDigits⟩
      · rename_i hfraction
        cases h
        exact ⟨.pointed (isRow_leadingDigits hwhole) (isRow_leadingDigits hfraction),
          fun _ => isDigit_head?_skipDigits⟩
    · cases h
      exact ⟨.whole (isRow_leadingDigits hwhole), fun _ => isDigit_head?_skipDigits⟩

/-- Where no digit stands, no literal is cut off. -/
theorem takeLiteral_eq_nil {c : Char} (rest : Text) (h : c.isDigit = false) :
    takeLiteral (c :: rest) = ([], c :: rest) := by
  simp only [takeLiteral, leadingDigits_cons rest h, List.isEmpty_nil, if_true]

/-- Where no literal is cut off, the text does not start with a digit. -/
theorem isDigit_of_takeLiteral {c : Char} {rest tail : Text}
    (h : takeLiteral (c :: rest) = ([], tail)) : c.isDigit = false := by
  cases hdigit : c.isDigit with
  | false => rfl
  | true =>
      have hlead : leadingDigits (c :: rest) = c :: leadingDigits rest := by
        rw [leadingDigits, List.takeWhile_cons, hdigit]
        rfl
      simp only [takeLiteral, hlead, List.isEmpty_cons, Bool.false_eq_true, if_false] at h
      split at h
      · split at h <;> cases h
      · cases h

/-! ### Taking a literal apart -/

/-- A digit is no sign. -/
theorem takeSign_of_isDigit {c : Char} (rest : Text) (h : c.isDigit = true) :
    takeSign (c :: rest) = (false, c :: rest) := by
  unfold takeSign
  split
  · rename_i heq
    cases heq
    cases h
  · rename_i heq
    cases heq
    cases h
  · rfl

/-- A row of digits is read as a whole number. -/
theorem ofText?_whole {digits : Text} (h : IsRow digits) :
    ofText? digits = some ⟨false, digits, [], 0⟩ := by
  obtain ⟨c, rest, hdigits, hc⟩ := h.head
  have hsign : takeSign digits = (false, digits) := by
    rw [hdigits]
    exact takeSign_of_isDigit rest hc
  have hlead : leadingDigits digits = digits := by
    simpa [leadingDigits] using leadingDigits_append h.2 []
  have hskip : skipDigits digits = [] := by
    simpa [skipDigits] using skipDigits_append h.2 []
  simp [ofText?, hsign, hlead, hskip, takeFraction, exponent?, h.1]

/-- Two rows with a point between them are read as whole part and fraction. -/
theorem ofText?_pointed {whole fraction : Text} (hwhole : IsRow whole) (hfraction : IsRow fraction) :
    ofText? (whole ++ '.' :: fraction) = some ⟨false, whole, fraction, 0⟩ := by
  obtain ⟨c, rest, hhead, hc⟩ := hwhole.head
  have hsign : takeSign (whole ++ '.' :: fraction) = (false, whole ++ '.' :: fraction) := by
    rw [hhead]
    exact takeSign_of_isDigit _ hc
  have hlead := leadingDigits_pointed hwhole.2 fraction
  have hskip := skipDigits_pointed hwhole.2 fraction
  have hfrac : leadingDigits fraction = fraction := by
    simpa [leadingDigits] using leadingDigits_append hfraction.2 []
  have htail : skipDigits fraction = [] := by
    simpa [skipDigits] using skipDigits_append hfraction.2 []
  simp [ofText?, hsign, hlead, hskip, hfrac, htail, takeFraction, exponent?, hwhole.1]

end Numeral

end Calculator
