/-
Module: Calculator.Proofs.Bracket
Layer: Proofs
Purpose: What the bracket scanner cuts off. `level` follows the count of open brackets through a
  text and fails when a bracket closes that was never opened; a text is `Balanced` when the count
  comes back to zero. The count is a fold, so it splits over an append, and the scanner's cut behind
  a prefix is its cut at the level which the prefix leaves. From this the group at the start of a
  text is exactly a balanced text in brackets.
Imports: Calculator.Bracket
Trusted boundary: none (fully proved)
Main exports: Bracket.level, Bracket.Balanced, Bracket.enclose, Bracket.takeGroup_eq_ok_iff,
  Bracket.stripOuter_sublist, Bracket.stripOuter_enclose
-/
import Calculator.Bracket

namespace Calculator.Bracket

/-- How many brackets are open behind a text that is read with `depth` of them open. There is no
    answer if a bracket closes while none is open. -/
def level (depth : Nat) : Text → Option Nat
  | [] => some depth
  | c :: rest =>
      if c = '(' then level (depth + 1) rest
      else if c = ')' then
        match depth with
        | 0 => none
        | d + 1 => level d rest
      else level depth rest

/-- Every bracket of the text is closed in it, and none before it is opened. -/
def Balanced (text : Text) : Prop := level 0 text = some 0

/-- A text in a pair of brackets. -/
def enclose (text : Text) : Text := '(' :: (text ++ [')'])

/-! ### The level of a text -/

@[simp] theorem level_nil (depth : Nat) : level depth [] = some depth := rfl

@[simp] theorem level_open (depth : Nat) (rest : Text) :
    level depth ('(' :: rest) = level (depth + 1) rest := rfl

@[simp] theorem level_close_zero (rest : Text) : level 0 (')' :: rest) = none := rfl

@[simp] theorem level_close_succ (depth : Nat) (rest : Text) :
    level (depth + 1) (')' :: rest) = level depth rest := rfl

theorem level_other (depth : Nat) {c : Char} (rest : Text) (hopen : c ≠ '(') (hclose : c ≠ ')') :
    level depth (c :: rest) = level depth rest := by
  rw [level.eq_def]
  simp only [hopen, hclose, if_false]

/-- The level behind a text is that behind its first part, carried on through the second. -/
theorem level_append (depth : Nat) (s t : Text) :
    level depth (s ++ t) = (level depth s).bind fun d => level d t := by
  induction s generalizing depth with
  | nil => rfl
  | cons c s ih =>
      by_cases hopen : c = '('
      · subst hopen
        exact ih (depth + 1)
      · by_cases hclose : c = ')'
        · subst hclose
          cases depth with
          | zero => rfl
          | succ d => exact ih d
        · rw [List.cons_append, level_other depth _ hopen hclose, level_other depth _ hopen hclose]
          exact ih depth

/-- A text that closes no bracket of its surroundings does the same with more of them open. -/
theorem level_add {depth e : Nat} {text : Text} (k : Nat) (h : level depth text = some e) :
    level (depth + k) text = some (e + k) := by
  induction text generalizing depth with
  | nil =>
      cases h
      rfl
  | cons c rest ih =>
      by_cases hopen : c = '('
      · subst hopen
        rw [level_open] at h ⊢
        rw [Nat.add_right_comm]
        exact ih h
      · by_cases hclose : c = ')'
        · subst hclose
          cases depth with
          | zero => cases h
          | succ d =>
              rw [Nat.add_right_comm, level_close_succ]
              exact ih h
        · rw [level_other _ _ hopen hclose] at h ⊢
          exact ih h

/-- Characters of a kind to which no bracket belongs leave the level as it is. -/
theorem level_eq_of_forall {p : Char → Prop} {text : Text} (depth : Nat) (hopen : ¬ p '(')
    (hclose : ¬ p ')') (h : ∀ c ∈ text, p c) : level depth text = some depth := by
  induction text with
  | nil => rfl
  | cons c rest ih =>
      have hc := h c List.mem_cons_self
      have hneOpen : c ≠ '(' := by
        rintro rfl
        exact hopen hc
      have hneClose : c ≠ ')' := by
        rintro rfl
        exact hclose hc
      rw [level_other depth rest hneOpen hneClose]
      exact ih fun d hd => h d (List.mem_cons_of_mem c hd)

/-! ### Balanced texts -/

namespace Balanced

/-- A balanced text keeps the level at which it starts. -/
theorem level_eq {text : Text} (h : Balanced text) (depth : Nat) : level depth text = some depth := by
  have := level_add depth h
  rwa [Nat.zero_add] at this

/-- Balanced texts may follow one another. -/
theorem append {s t : Text} (hs : Balanced s) (ht : Balanced t) : Balanced (s ++ t) := by
  unfold Balanced
  rw [level_append, hs]
  exact ht

/-- A balanced text may be enclosed. -/
theorem enclose {text : Text} (h : Balanced text) : Balanced (enclose text) := by
  unfold Balanced Bracket.enclose
  rw [level_open, level_append, h.level_eq]
  rfl

/-- What follows a balanced part of a balanced text is balanced. -/
theorem of_append {s t : Text} (h : Balanced (s ++ t)) (hs : Balanced s) : Balanced t := by
  unfold Balanced at h
  rw [level_append, hs] at h
  exact h

/-- Before the end of a balanced text the bracket around it stays open. -/
theorem level_one_ne_zero {s t : Text} (h : Balanced (s ++ t)) : level 1 s ≠ some 0 := by
  intro hs
  unfold Balanced at h
  rw [level_append] at h
  cases hlevel : level 0 s with
  | none =>
      rw [hlevel] at h
      cases h
  | some k =>
      rw [level_add 1 hlevel] at hs
      cases hs

end Balanced

/-! ### Groups -/

/-- Behind a prefix the scanner continues at the level which the prefix leaves. -/
theorem takeClosing_append_of_level {depth e : Nat} {s : Text} (h : level depth s = some e)
    (rest : Text) :
    takeClosing depth (s ++ rest) = (takeClosing e rest).map fun cut => (s ++ cut.1, cut.2) := by
  induction s generalizing depth with
  | nil =>
      cases h
      simp
  | cons c s ih =>
      rw [List.cons_append, takeClosing.eq_def]
      by_cases hopen : c = '('
      · subst hopen
        simp only [if_true]
        rw [ih h, Option.map_map]
        rfl
      · by_cases hclose : c = ')'
        · subst hclose
          cases depth with
          | zero => cases h
          | succ d =>
              rw [level_close_succ] at h
              simp only [hopen, if_false, if_true]
              rw [ih h, Option.map_map]
              rfl
        · rw [level_other _ _ hopen hclose] at h
          simp only [hopen, hclose, if_false]
          rw [ih h, Option.map_map]
          rfl

/-- What stands before the closing bracket of a cut closes all the inner brackets. -/
theorem level_of_takeClosing {depth : Nat} {text : Text} {cut : Text × Text}
    (h : takeClosing depth text = some cut) :
    ∃ w, cut.1 = w ++ [')'] ∧ level depth w = some 0 := by
  induction text generalizing depth cut with
  | nil => cases h
  | cons c rest ih =>
      rw [takeClosing.eq_def] at h
      by_cases hopen : c = '('
      · subst hopen
        obtain ⟨inner, hinner, rfl⟩ := Option.map_eq_some_iff.1 h
        obtain ⟨w, hw, hlevel⟩ := ih hinner
        exact ⟨'(' :: w, by rw [hw]; rfl, hlevel⟩
      · by_cases hclose : c = ')'
        · subst hclose
          cases depth with
          | zero =>
              cases h
              exact ⟨[], rfl, rfl⟩
          | succ d =>
              obtain ⟨inner, hinner, rfl⟩ := Option.map_eq_some_iff.1 h
              obtain ⟨w, hw, hlevel⟩ := ih hinner
              exact ⟨')' :: w, by rw [hw]; rfl, hlevel⟩
        · simp only [hopen, hclose, if_false] at h
          obtain ⟨inner, hinner, rfl⟩ := Option.map_eq_some_iff.1 h
          obtain ⟨w, hw, hlevel⟩ := ih hinner
          exact ⟨c :: w, by rw [hw]; rfl, by rw [level_other depth w hopen hclose]; exact hlevel⟩

/-- A text that closes no bracket of its surroundings leads to some level. -/
theorem exists_level {depth : Nat} {text : Text} (h : takeClosing depth text = none) :
    ∃ e, level depth text = some e := by
  induction text generalizing depth with
  | nil => exact ⟨depth, rfl⟩
  | cons c rest ih =>
      rw [takeClosing.eq_def] at h
      by_cases hopen : c = '('
      · subst hopen
        exact ih (Option.map_eq_none_iff.1 h)
      · by_cases hclose : c = ')'
        · subst hclose
          cases depth with
          | zero => cases h
          | succ d => exact ih (Option.map_eq_none_iff.1 h)
        · simp only [hopen, hclose, if_false] at h
          rw [level_other depth rest hopen hclose]
          exact ih (Option.map_eq_none_iff.1 h)

/-- A balanced text in brackets is cut off whole, whatever follows it. -/
theorem takeGroup_enclose {w : Text} (hw : Balanced w) (rest : Text) :
    takeGroup (enclose w ++ rest) = .ok (enclose w, rest) := by
  have hcut : takeClosing 0 (w ++ ')' :: rest) = some (w ++ [')'], rest) := by
    rw [takeClosing_append_of_level hw]
    rfl
  simp only [enclose, List.cons_append, List.append_assoc, List.nil_append, takeGroup, hcut]

/-- The group at the start of a text is a balanced text in brackets, and only that. -/
theorem takeGroup_eq_ok_iff {text group rest : Text} :
    takeGroup text = .ok (group, rest) ↔
      ∃ w, Balanced w ∧ group = enclose w ∧ text = group ++ rest := by
  constructor
  · intro h
    obtain ⟨htext, -⟩ := takeGroup_eq_ok h
    unfold takeGroup at h
    split at h
    · split at h
      · rename_i cut hcut
        cases h
        obtain ⟨w, hw, hlevel⟩ := level_of_takeClosing hcut
        exact ⟨w, hlevel, by rw [hw]; rfl, htext.symm⟩
      · cases h
    · cases h
  · rintro ⟨w, hw, rfl, rfl⟩
    exact takeGroup_enclose hw rest

/-- Stripping leaves the characters that remain in their order. -/
theorem stripOuter_sublist (text : Text) : (stripOuter text).Sublist text := by
  unfold stripOuter
  split
  · split
    · exact (List.dropLast_sublist _).trans (List.sublist_cons_self _ _)
    · exact List.Sublist.refl _
  · exact List.Sublist.refl _

/-- Stripping undoes enclosing. -/
@[simp] theorem stripOuter_enclose (w : Text) : stripOuter (enclose w) = w := by
  simp [stripOuter, enclose]

end Calculator.Bracket
