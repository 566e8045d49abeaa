/-
Module: Calculator.Binary64.Basic
Layer: Numbers
Purpose: Double precision numbers as a sign and a magnitude. The magnitude is the word of the number
  without its sign bit, so magnitudes are ordered as the numbers they stand for, neighbours differ
  by one, and the exact value is a natural number of units of 2^-1074.
Trusted boundary: none
Main exports: Binary64, Binary64.ofBits, Binary64.toBits, Binary64.unitsOf, Binary64.isNaN,
  Binary64.isFinite, Binary64.same
-/
namespace Calculator

/-- A double precision number. `magnitude` is its 64-bit word without the sign bit: eleven bits of
    exponent above fifty-two bits of fraction. -/
structure Binary64 where
  /-- The sign bit. -/
  negative : Bool
  /-- The other 63 bits. -/
  magnitude : Nat
  bounded : magnitude < 0x8000000000000000 := by decide
  deriving DecidableEq, Repr

namespace Binary64

/-- The magnitude of the infinities: all bits of the exponent set and no bit of the fraction. Finite
    numbers lie below it and the words above it are no numbers. -/
def infinity : Nat := 0x7ff0000000000000

/-- The number a 64-bit word stands for. -/
def ofBits (word : UInt64) : Binary64 where
  negative := 0x8000000000000000 ≤ word.toNat
  magnitude := word.toNat % 0x8000000000000000
  bounded := Nat.mod_lt _ (by decide)

/-- The 64-bit word of a number. -/
def toBits (x : Binary64) : UInt64 :=
  UInt64.ofNat (x.magnitude + if x.negative then 0x8000000000000000 else 0)

/-- A word that is no number. -/
def isNaN (x : Binary64) : Bool := infinity < x.magnitude

/-- Neither infinite nor a word that is no number. -/
def isFinite (x : Binary64) : Bool := x.magnitude < infinity

/-- Equality of numbers: both zeros are equal, and what is no number is not even equal to itself. -/
def same (x y : Binary64) : Bool :=
  !x.isNaN && !y.isNaN && (x = y || x.magnitude = 0 && y.magnitude = 0)

/-- How many magnitudes share an exponent: 2^52, the number of fractions. -/
def fractions : Nat := 0x10000000000000

/-- How many units of 2^-1074 make up one. -/
def unitsPerOne : Nat := Nat.pow 2 1074

/-- The exact value of a finite magnitude in units of 2^-1074, the smallest positive double.
    Magnitudes without an exponent count the units; above them, each step of the exponent doubles
    the unit. -/
def unitsOf (magnitude : Nat) : Nat :=
  if magnitude < fractions then magnitude
  else (fractions + magnitude % fractions) * Nat.pow 2 (magnitude / fractions - 1)

/-- The positive zero. -/
def zero : Binary64 := ⟨false, 0, by decide⟩

/-- The word of a number as a natural number. -/
theorem toNat_toBits (x : Binary64) :
    x.toBits.toNat = x.magnitude + if x.negative then 0x8000000000000000 else 0 := by
  have hx := x.bounded
  rw [toBits, UInt64.toNat_ofNat']
  apply Nat.mod_eq_of_lt
  split <;> omega

/-- No double is lost in its bits. -/
theorem ofBits_toBits (x : Binary64) : ofBits x.toBits = x := by
  obtain ⟨negative, magnitude, bounded⟩ := x
  simp only [ofBits, toNat_toBits, Binary64.mk.injEq]
  -- The magnitude lies below the sign bit, so the word splits in one way.
  cases negative
  · exact ⟨decide_eq_false (by simp only [Bool.false_eq_true, if_false]; omega),
      by simp only [Bool.false_eq_true, if_false]; omega⟩
  · exact ⟨decide_eq_true (by simp only [if_true]; omega), by simp only [if_true]; omega⟩

/-- Every word is the bits of a double: a payload of NaN is kept, too. -/
theorem toBits_ofBits (word : UInt64) : (ofBits word).toBits = word := by
  apply UInt64.toNat_inj.1
  have hword := word.toNat_lt
  rw [toNat_toBits]
  simp only [ofBits, decide_eq_true_eq]
  split <;> omega

end Binary64

end Calculator
