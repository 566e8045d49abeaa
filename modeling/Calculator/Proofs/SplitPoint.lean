/-
Module: Calculator.Proofs.SplitPoint
Layer: Proofs
Purpose: The split point by its position. `Split.loosest?` takes a list of tokens apart, and what it
  promises is stated there for the two sides; here the same is said of the index at which the operator
  stands. A loop over the positions from right to left, which keeps the best operator so far and gives it
  up only for one that binds strictly looser, ends with the same operator at the same index.
Imports: Calculator.Proofs.Calls, Calculator.Proofs.Precedence
Trusted boundary: none (fully proved)
Main exports: Split.LoosestAt, Split.searchBack, Split.searchBack_eq, Split.loosest?_eq_none_iff,
  Split.place_eq_some_iff_loosestAt
-/
import Calculator.Proofs.Calls
import Calculator.Proofs.Precedence

namespace Calculator.Split

/-- Where a split has its operator, and which one it is. -/
def place (split : Split) : Nat × Operator := (split.index, split.op)

/-- The operator stands at the index. None of the tokens binds looser, and none behind the index binds as
    loosely. -/
structure LoosestAt (tokens : List Token) (index : Nat) (op : Operator) : Prop where
  stands : tokens[index]? = some (.operator op)
  loosest : ∀ (i : Nat) (o : Operator), tokens[i]? = some (.operator o) → o.rank ≤ op.rank
  rightmost : ∀ (i : Nat) (o : Operator), index < i → tokens[i]? = some (.operator o) →
    o.rank < op.rank

/-! ### The loop from right to left -/

/-- One turn of the loop. The token at an index is compared with the best operator behind it. -/
def keepLooser (entry : Token × Nat) (best : Option (Nat × Operator)) : Option (Nat × Operator) :=
  match entry.1, best with
  | .operator op, some (_, current) =>
      if op.rank ≤ current.rank then best else some (entry.2, op)
  | .operator op, none => some (entry.2, op)
  | _, _ => best

/-- The loop over all tokens, the last one first. -/
def searchBack (tokens : List Token) : Option (Nat × Operator) := tokens.zipIdx.foldr keepLooser none

/-- Behind every turn the loop holds the split point of the tokens it has seen, with its index counted
    from the start of the whole list. -/
theorem foldr_keepLooser (tokens : List Token) (start : Nat) :
    (tokens.zipIdx start).foldr keepLooser none =
      (loosest? tokens).map fun split => (start + split.index, split.op) := by
  induction tokens generalizing start with
  | nil => rfl
  | cons token rest ih =>
      have hpush (token : Token) (split : Split) :
          start + 1 + split.index = start + (split.push token).index := by
        simp only [index, push, List.length_cons]
        omega
      rw [List.zipIdx_cons, List.foldr_cons, ih]
      cases token with
      | operator op =>
          rw [loosest?]
          cases loosest? rest with
          | none => rfl
          | some best =>
              by_cases hle : op.rank ≤ best.op.rank
              · simp only [keepLooser, Option.map_some, if_pos hle, if_neg (Nat.not_lt.2 hle),
                  hpush (.operator op)]
                rfl
              · simp only [keepLooser, Option.map_some, if_neg hle, if_pos (Nat.lt_of_not_le hle)]
                rfl
      | number literal =>
          simp only [keepLooser, loosest?, Option.map_map, Function.comp_def, hpush (.number literal)]
          rfl
      | group text =>
          simp only [keepLooser, loosest?, Option.map_map, Function.comp_def, hpush (.group text)]
          rfl

theorem searchBack_eq (tokens : List Token) : searchBack tokens = (loosest? tokens).map place := by
  rw [searchBack, foldr_keepLooser]
  simp only [Nat.zero_add]
  rfl

/-! ### Positions -/

theorem loosest?_eq_none_iff {tokens : List Token} :
    loosest? tokens = none ↔ ∀ op, Token.operator op ∉ tokens := by
  constructor
  · intro hnone op hmem
    obtain ⟨split, hsplit⟩ := loosest?_isSome_of_mem hmem
    rw [hnone] at hsplit
    cases hsplit
  · intro hfree
    cases hsplit : loosest? tokens with
    | none => rfl
    | some split =>
        obtain ⟨-, hstands, -⟩ := slices_of_loosest? hsplit
        exact absurd (List.mem_of_getElem? hstands) (hfree split.op)

/-- What is said of the two sides of a split holds of the positions before and behind its operator. -/
theorem Loosest.loosestAt {split : Split} (h : split.Loosest) :
    LoosestAt split.tokens split.index split.op := by
  obtain ⟨hleft, hright⟩ := h
  have hstands : split.tokens[split.index]? = some (.operator split.op) := by
    simp [tokens, index]
  have hbehind : ∀ i o, split.index < i → split.tokens[i]? = some (.operator o) →
      o.rank < split.op.rank := by
    intro i o hi ho
    obtain ⟨k, rfl⟩ := Nat.exists_eq_add_of_lt hi
    apply hright
    apply List.mem_of_getElem? (i := k)
    simpa [tokens, index, List.getElem?_append_right, Nat.add_assoc] using ho
  refine ⟨hstands, ?_, hbehind⟩
  intro i o ho
  rcases Nat.lt_trichotomy i split.index with hi | rfl | hi
  · apply hleft
    apply List.mem_of_getElem? (i := i)
    rwa [tokens, List.getElem?_append_left hi] at ho
  · rw [hstands] at ho
    cases ho
    exact Nat.le_refl _
  · exact Nat.le_of_lt (hbehind i o hi ho)

/-- At such a position the tokens can be split. -/
theorem LoosestAt.exists_split {tokens : List Token} {i : Nat} {op : Operator}
    (h : LoosestAt tokens i op) :
    ∃ split : Split, split.tokens = tokens ∧ split.Loosest ∧ split.place = (i, op) := by
  obtain ⟨hlt, htoken⟩ := List.getElem?_eq_some_iff.1 h.stands
  refine ⟨⟨tokens.take i, op, tokens.drop (i + 1)⟩, ?_, ⟨?_, ?_⟩, ?_⟩
  · rw [Split.tokens, ← htoken, ← List.drop_eq_getElem_cons hlt, List.take_append_drop]
  · intro o ho
    obtain ⟨k, hk⟩ := List.mem_iff_getElem?.1 (List.mem_of_mem_take ho)
    exact h.loosest k o hk
  · intro o ho
    obtain ⟨k, hk⟩ := List.mem_iff_getElem?.1 ho
    rw [List.getElem?_drop] at hk
    exact h.rightmost (i + 1 + k) o (by omega) hk
  · rw [place, index, List.length_take, Nat.min_eq_left hlt.le]

/-- The split point is the rightmost of the loosest operators: there is one unless no token is an
    operator, and it is found at an index exactly if the operator there is as loose as any and looser than
    all behind it. The loop from right to left finds it. -/
theorem place_eq_some_iff_loosestAt (tokens : List Token) :
    (loosest? tokens = none ↔ ∀ op, Token.operator op ∉ tokens) ∧
      (∀ i op, (loosest? tokens).map place = some (i, op) ↔ LoosestAt tokens i op) ∧
      searchBack tokens = (loosest? tokens).map place := by
  refine ⟨loosest?_eq_none_iff, ?_, searchBack_eq tokens⟩
  intro i op
  rw [Option.map_eq_some_iff]
  constructor
  · rintro ⟨split, hsplit, hplace⟩
    obtain ⟨rfl, hloosest⟩ := loosest?_eq_some_iff.1 hsplit
    cases hplace
    exact hloosest.loosestAt
  · intro h
    obtain ⟨split, rfl, hloosest, hplace⟩ := h.exists_split
    exact ⟨split, loosest?_tokens hloosest, hplace⟩

-- Of the two loosest operators the right one is found, and the tighter one behind it does not count.
example : (loosest? [.number ['1'], .operator .sub, .group "(2-3)".toList, .operator .sub,
    .number ['4'], .operator .mul, .number ['5']]).map place = some (3, .sub) := by decide

end Calculator.Split
