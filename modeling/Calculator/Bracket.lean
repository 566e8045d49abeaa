/-
Module: Calculator.Bracket
Layer: Tokens
Purpose: Bracketed groups. A group is the shortest prefix of a text that starts with an opening
  bracket and closes as many brackets as it opens; `takeGroup` cuts it off, and `stripOuter` removes
  the two brackets around a group again.
Imports: Calculator.Text.Basic
Trusted boundary: none
Main exports: BracketError, Bracket.takeGroup, Bracket.stripOuter, Bracket.takeGroup_eq_ok
-/
import Calculator.Text.Basic

namespace Calculator

/-- Why no group can be cut off a text. Both cases carry the text. -/
inductive BracketError where
  /-- The text does not start with an opening bracket. -/
  | notOpened (text : Text)
  /-- The bracket the text starts with is never closed. -/
  | unclosed (text : Text)
  deriving DecidableEq, Repr

namespace Bracket

/-- Cuts a text behind the bracket that closes the outermost of `depth + 1` open ones. -/
def takeClosing (depth : Nat) : Text → Option (Text × Text)
  | [] => none
  | c :: rest =>
      if c = '(' then
        (takeClosing (depth + 1) rest).map fun cut => (c :: cut.1, cut.2)
      else if c = ')' then
        match depth with
        | 0 => some ([c], rest)
        | d + 1 => (takeClosing d rest).map fun cut => (c :: cut.1, cut.2)
      else
        (takeClosing depth rest).map fun cut => (c :: cut.1, cut.2)

/-- Cuts the group off a text, together with what follows it. -/
def takeGroup (text : Text) : Except BracketError (Text × Text) :=
  match text with
  | '(' :: rest =>
      match takeClosing 0 rest with
      | some cut => .ok ('(' :: cut.1, cut.2)
      | none => .error (.unclosed text)
  | _ => .error (.notOpened text)

/-- Removes a bracket from either end. A text that lacks one of them stays as it is. -/
def stripOuter (text : Text) : Text :=
  match text with
  | '(' :: rest => if rest.getLast? = some ')' then rest.dropLast else text
  | _ => text

/-! ### A cut loses nothing and ends in a closing bracket -/

/-- What is cut off and what remains make up the text. -/
theorem takeClosing_append {depth : Nat} {text : Text} {cut : Text × Text}
    (h : takeClosing depth text = some cut) : cut.1 ++ cut.2 = text := by
  induction text generalizing depth cut with
  | nil => simp [takeClosing] at h
  | cons c rest ih =>
    unfold takeClosing at h
    split at h
    · obtain ⟨inner, hi, rfl⟩ := Option.map_eq_some_iff.1 h
      simp [ih hi]
    · split at h
      · split at h
        · cases h; rfl
        · obtain ⟨inner, hi, rfl⟩ := Option.map_eq_some_iff.1 h
          simp [ih hi]
      · obtain ⟨inner, hi, rfl⟩ := Option.map_eq_some_iff.1 h
        simp [ih hi]

/-- The part that is cut off ends with the bracket that closes it. -/
theorem takeClosing_getLast? {depth : Nat} {text : Text} {cut : Text × Text}
    (h : takeClosing depth text = some cut) : cut.1.getLast? = some ')' := by
  induction text generalizing depth cut with
  | nil => simp [takeClosing] at h
  | cons c rest ih =>
    unfold takeClosing at h
    split at h
    · obtain ⟨inner, hi, rfl⟩ := Option.map_eq_some_iff.1 h
      simp [List.getLast?_cons, ih hi]
    · split at h
      · split at h
        · cases h; simp_all
        · obtain ⟨inner, hi, rfl⟩ := Option.map_eq_some_iff.1 h
          simp [List.getLast?_cons, ih hi]
      · obtain ⟨inner, hi, rfl⟩ := Option.map_eq_some_iff.1 h
        simp [List.getLast?_cons, ih hi]

/-- What a successful cut looks like: the text is the group followed by the rest, and the group is
    an opening bracket followed by something that ends in a closing one. -/
theorem takeGroup_eq_ok {text group rest : Text} (h : takeGroup text = .ok (group, rest)) :
    group ++ rest = text ∧ ∃ inner, group = '(' :: inner ∧ inner.getLast? = some ')' := by
  unfold takeGroup at h
  split at h
  · split at h
    · rename_i cut hcut
      cases h
      exact ⟨by simp [takeClosing_append hcut], _, rfl, takeClosing_getLast? hcut⟩
    · cases h
  · cases h

/-- A text that starts with an opening bracket and ends with another, closing one loses both. -/
theorem length_stripOuter {text inner : Text} (h : text = '(' :: inner)
    (hlast : inner.getLast? = some ')') : (stripOuter text).length + 2 = text.length := by
  subst h
  have hne : inner ≠ [] := by rintro rfl; simp at hlast
  have hpos : 0 < inner.length := List.length_pos_iff.2 hne
  simp only [stripOuter, hlast, if_true, List.length_dropLast, List.length_cons]
  omega

/-- Any other text is left alone. -/
theorem stripOuter_eq_self {text : Text}
    (h : ∀ inner, text = '(' :: inner → inner.getLast? ≠ some ')') : stripOuter text = text := by
  unfold stripOuter
  split
  · rw [if_neg (h _ rfl)]
  · rfl

end Bracket

end Calculator
