/-
Module: Calculator.Decimal.Shortest
Layer: Numbers
Purpose: The shortest decimal that reads back to a given double. The decimals with a fixed number of
  places form a grid; the search goes from coarse grids to fine ones and stops at the first that has
  a point which the double is nearest to. Only the two neighbours of the value have to be tried on
  each grid, the nearer one first, and of two equally near ones the larger first. The finest grid
  holds the value itself, so the search always ends with a decimal that reads back.
Imports: Calculator.Decimal.Basic
Trusted boundary: none
Main exports: Decimal.neighbours, Decimal.searchFrom, Decimal.shortest
-/
import Calculator.Decimal.Basic

namespace Calculator.Decimal

/-- A unit of 2^-1074 is 5^1074 times 10^-1074, so in these finer units every double is whole. -/
def fineUnits (magnitude : Nat) : Nat := Binary64.unitsOf magnitude * Nat.pow 5 1074

/-- The two decimals around `fine * 10^-1074` whose last digit stands for `10 ^ (place - 1074)`, the
    nearer one first. -/
def neighbours (fine place : Nat) : List Decimal :=
  let step := Nat.pow 10 place
  let below : Decimal := ⟨fine / step, (place : Int) - 1074⟩
  let above : Decimal := ⟨fine / step + 1, (place : Int) - 1074⟩
  if 2 * (fine % step) < step then [below, above] else [above, below]

/-- The search for a decimal that reads back to the magnitude, from the grid `place` downwards. -/
def searchFrom (magnitude fine : Nat) : Nat → Decimal
  | 0 => ⟨fine, -1074⟩
  | place + 1 =>
      match (neighbours fine (place + 1)).find? fun d => d.nearest = magnitude with
      | some d => d
      | none => searchFrom magnitude fine place

/-- A bound on the number of decimal digits of a natural number: 30103 / 100000 is just above the
    logarithm of two to base ten. -/
def digitBound (n : Nat) : Nat := (Nat.log2 n + 1) * 30103 / 100000 + 1

/-- The shortest decimal that reads back to a finite magnitude, the nearest one if there are two. -/
def shortest (magnitude : Nat) : Decimal :=
  if magnitude = 0 then ⟨0, 0⟩
  else
    let fine := fineUnits magnitude
    searchFrom magnitude fine (digitBound fine)

end Calculator.Decimal
