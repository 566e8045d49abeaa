/-
Module: Calculator.Proofs.UniqueReading
Layer: Proofs
Purpose: A formula has one reading at most, whatever the convention on its numbers is. One pass over the
  symbols, with what is pending on each level of brackets on a stack, follows every derivation and so ends
  with the only reading that a formula can have.
Imports: Calculator.Proofs.Formula
Trusted boundary: none (fully proved)
Main exports: Latex.State.run, Latex.Convention.Derives.follows, Latex.Convention.Reads.unique,
  Latex.Convention.Reads.iff_eq
-/
import Calculator.Proofs.Formula

namespace Calculator.Latex

variable {α : Type}

/-! ### One pass over the symbols

On each level of brackets, a sum waits for its next product and a product for its next factor. A minus
sign that stands where a factor has to follow is kept until the factor is complete, with its exponent. A
bracket that opens puts what waits outside on a stack, together with the base or the numerator in front
of it; when the bracket closes, the sum inside it is complete. -/

/-- What stands on one level before the factor that is to be read next. -/
structure Pending (α : Type) where
  /-- The sum so far, and the sign behind it. -/
  sum : Option (α × Sign) := none
  /-- The product so far, behind which stands a sign of multiplication. -/
  product : Option α := none
  /-- What a minus sign before the factor makes of it, nothing if there is none. -/
  negate : α → α := id

namespace Pending

variable (C : Convention α)

/-- The product with its next factor. -/
def multiply (pending : Pending α) (factor : α) : α :=
  match pending.product with
  | none => pending.negate factor
  | some left => C.binary left .mul (pending.negate factor)

/-- The sum with the product that ends with the factor. -/
def total (pending : Pending α) (factor : α) : α :=
  match pending.sum with
  | none => pending.multiply C factor
  | some (left, sign) => C.binary left sign.operator (pending.multiply C factor)

end Pending

/-- What an open bracket interrupts. -/
inductive Frame (α : Type) where
  | bracket (outside : Pending α)
  | exponent (outside : Pending α) (base : α)
  | numerator (outside : Pending α)
  | denominator (outside : Pending α) (numerator : α)

/-- How far a formula has been read. -/
inductive State (α : Type) where
  /-- A factor has to follow. -/
  | expects (frames : List (Frame α)) (pending : Pending α)
  /-- A factor has been read, and it may be the base of a power or not. -/
  | holds (frames : List (Frame α)) (pending : Pending α) (factor : α) (isBase : Bool)

namespace State

variable (C : Convention α)

/-- Reads one more symbol. -/
def next : State α → Symbol → Option (State α)
  | expects frames pending, .number literal =>
      (Numeral.read? literal).map fun x => holds frames pending (C.number x) true
  | expects frames pending, .sign .minus =>
      C.minus.map fun negate => expects frames { pending with negate }
  | expects frames pending, .left => some (expects (.bracket pending :: frames) {})
  | expects frames pending, .fraction => some (expects (.numerator pending :: frames) {})
  | holds frames pending factor _, .sign sign =>
      some (expects frames { sum := some (pending.total C factor, sign) })
  | holds frames pending factor _, .times =>
      some (expects frames { sum := pending.sum, product := some (pending.multiply C factor) })
  | holds frames pending factor true, .power => some (expects (.exponent pending factor :: frames) {})
  | holds (.exponent outside base :: frames) pending factor _, .close =>
      some (holds frames outside (C.binary base .pow (pending.total C factor)) false)
  | holds (.numerator outside :: frames) pending factor _, .bar =>
      some (expects (.denominator outside (pending.total C factor) :: frames) {})
  | holds (.denominator outside numerator :: frames) pending factor _, .close =>
      some (holds frames outside (C.binary numerator .div (pending.total C factor)) false)
  | holds (.bracket outside :: frames) pending factor _, .right =>
      some (holds frames outside (pending.total C factor) true)
  | _, _ => none

/-- Reads symbols one after another. -/
def run : State α → List Symbol → Option (State α)
  | state, [] => some state
  | state, symbol :: symbols => (state.next C symbol).bind fun state' => state'.run symbols

theorem run_append (state : State α) (before behind : List Symbol) :
    state.run C (before ++ behind) =
      (state.run C before).bind fun state' => state'.run C behind := by
  induction before generalizing state with
  | nil => rfl
  | cons symbol before ih =>
      rw [List.cons_append, run, run, Option.bind_assoc]
      exact congrArg _ (funext ih)

end State

namespace Convention

variable {C : Convention α}

/-- Whatever stands around the phrase, the pass over its symbols ends behind it with its reading: as a
    base, or as the factor, the product or the sum that is complete with what was read last. A sign
    before a base may already be pending, but not before a factor, which has its own. -/
def Follows (C : Convention α) (phrase : Phrase) (symbols : List Symbol) (r : α) : Prop :=
  match phrase with
  | .base => ∀ frames pending,
      (State.expects frames pending).run C symbols = some (.holds frames pending r true)
  | .factor => ∀ frames sum product, ∃ negate factor isBase,
      (State.expects frames ⟨sum, product, id⟩).run C symbols =
        some (.holds frames ⟨sum, product, negate⟩ factor isBase) ∧ negate factor = r
  | .product => ∀ frames sum, ∃ product negate factor isBase,
      (State.expects frames ⟨sum, none, id⟩).run C symbols =
        some (.holds frames ⟨sum, product, negate⟩ factor isBase) ∧
          Pending.multiply C ⟨sum, product, negate⟩ factor = r
  | .sum => ∀ frames, ∃ pending factor isBase,
      (State.expects frames {}).run C symbols = some (.holds frames pending factor isBase) ∧
        pending.total C factor = r

/-- The pass follows every derivation. -/
theorem Derives.follows {phrase : Phrase} {symbols : List Symbol} {r : α}
    (h : C.Derives phrase symbols r) : C.Follows phrase symbols r := by
  induction h with
  | number _ hread =>
      intro frames pending
      simp [State.run, State.next, hread]
  | bracket _ ih =>
      intro frames pending
      obtain ⟨inner, factor, isBase, hrun, htotal⟩ := ih (.bracket pending :: frames)
      simp [State.run, State.next, State.run_append, hrun, htotal]
  | base _ ih =>
      intro frames sum product
      exact ⟨id, _, true, ih frames _, rfl⟩
  | @power symbols exponent r s _ _ ih ih' =>
      intro frames sum product
      obtain ⟨inner, factor, isBase, hrun, htotal⟩ :=
        ih' (.exponent ⟨sum, product, id⟩ r :: frames)
      refine ⟨id, _, false, ?_, rfl⟩
      simp [State.run, State.next, State.run_append, ih frames ⟨sum, product, id⟩, hrun, htotal]
  | @minus negate _ _ hminus _ hread =>
      intro frames sum product
      refine ⟨negate, _, true, ?_, rfl⟩
      simp [State.run, State.next, hminus, hread]
  | @minusPower negate literal x exponent s hminus _ hread _ ih =>
      -- The sign waits outside the exponent.
      intro frames sum product
      obtain ⟨inner, factor, isBase, hrun, htotal⟩ :=
        ih (.exponent ⟨sum, product, negate⟩ (C.number x) :: frames)
      refine ⟨negate, _, false, ?_, rfl⟩
      simp [State.run, State.next, State.run_append, hminus, hread, hrun, htotal]
  | @fraction numerator denominator r s _ _ ih ih' =>
      intro frames sum product
      obtain ⟨inner, factor, isBase, hrun, htotal⟩ :=
        ih (.numerator ⟨sum, product, id⟩ :: frames)
      obtain ⟨inner', factor', isBase', hrun', htotal'⟩ :=
        ih' (.denominator ⟨sum, product, id⟩ r :: frames)
      refine ⟨id, _, false, ?_, rfl⟩
      simp [State.run, State.next, State.run_append, hrun, htotal, hrun', htotal']
  | factor _ ih =>
      intro frames sum
      obtain ⟨negate, factor, isBase, hrun, hfactor⟩ := ih frames sum none
      exact ⟨none, negate, factor, isBase, hrun, hfactor⟩
  | @times symbols symbols' r s _ _ ih ih' =>
      intro frames sum
      obtain ⟨product, negate, factor, isBase, hrun, hmultiply⟩ := ih frames sum
      obtain ⟨negate', factor', isBase', hrun', hfactor⟩ := ih' frames sum (some r)
      refine ⟨some r, negate', factor', isBase', ?_, ?_⟩
      · simp [State.run, State.next, State.run_append, hrun, hmultiply, hrun']
      · exact congrArg (C.binary r .mul) hfactor
  | product _ ih =>
      intro frames
      obtain ⟨product, negate, factor, isBase, hrun, hmultiply⟩ := ih frames none
      exact ⟨⟨none, product, negate⟩, factor, isBase, hrun, hmultiply⟩
  | @sum symbols symbols' r s sign _ _ ih ih' =>
      intro frames
      obtain ⟨pending, factor, isBase, hrun, htotal⟩ := ih frames
      obtain ⟨product, negate, factor', isBase', hrun', hmultiply⟩ := ih' frames (some (r, sign))
      refine ⟨⟨some (r, sign), product, negate⟩, factor', isBase', ?_, ?_⟩
      · cases sign <;> simp [State.run, State.next, State.run_append, hrun, htotal, hrun']
      · rw [Pending.total, hmultiply]

/-- A formula has one reading at most. -/
theorem Reads.unique {text : Text} {r s : α} (h : C.Reads text r) (h' : C.Reads text s) : r = s := by
  obtain ⟨symbols, hsymbols, hderives⟩ := h
  obtain ⟨symbols', hsymbols', hderives'⟩ := h'
  rw [hsymbols] at hsymbols'
  cases hsymbols'
  obtain ⟨pending, factor, isBase, hrun, rfl⟩ := hderives.follows []
  obtain ⟨pending', factor', isBase', hrun', rfl⟩ := hderives'.follows []
  rw [hrun] at hrun'
  cases hrun'
  rfl

/-- A formula that has a reading has no other. -/
theorem Reads.iff_eq {text : Text} {r : α} (h : C.Reads text r) (s : α) :
    C.Reads text s ↔ s = r := by
  constructor
  · exact fun hs => hs.unique h
  · rintro rfl
    exact h

end Convention

end Calculator.Latex
