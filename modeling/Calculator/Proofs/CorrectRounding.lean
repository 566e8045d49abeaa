/-
Module: Calculator.Proofs.CorrectRounding
Layer: Proofs
Purpose: Rounding is correct. `Binary64.RoundsTo` says what the nearest double is without saying how it is
  found: no finite double of either sign lies nearer, and if another one lies as near, the last bit of the
  result is zero. `Binary64.nearest` has this property wherever it is finite, and no other double has it.
  Between the two stands one observation on magnitudes: at the scale of a quotient every double is a
  whole number of steps or lies below all quotients of this scale.
Imports: Calculator.Proofs.SignedNumber, Mathlib.Algebra.Order.Field.Basic,
  Mathlib.Data.Rat.Cast.Order, Mathlib.Tactic.Linarith
Trusted boundary: none (fully proved)
Main exports: Binary64.unitsOf_strictMono, Binary64.RoundsTo, Binary64.roundsTo_nearest,
  Binary64.RoundsTo.unique
-/
import Calculator.Proofs.SignedNumber
import Mathlib.Algebra.Order.Field.Basic
import Mathlib.Data.Rat.Cast.Order
import Mathlib.Tactic.Linarith

namespace Calculator.Binary64

/-! ### The order of magnitudes -/

/-- Magnitudes are ordered as the values they stand for. -/
theorem unitsOf_strictMono : StrictMono unitsOf := by
  apply strictMono_nat_of_lt_succ
  intro magnitude
  obtain ⟨count, scale, rfl, hcount, hfull⟩ := exists_scaled magnitude
  rw [Nat.add_right_comm, unitsOf_scaled hcount.le hfull, unitsOf_scaled hcount (by omega)]
  exact Nat.mul_lt_mul_of_pos_right (Nat.lt_succ_self count) (Nat.two_pow_pos scale)

/-- What is no whole number of steps at a scale is smaller than every count of 53 bits there. -/
theorem dvd_unitsOf_or_lt (magnitude scale : Nat) :
    2 ^ scale ∣ unitsOf magnitude ∨ unitsOf magnitude < 2 ^ (scale + 52) := by
  obtain ⟨count, own, rfl, hcount, hfull⟩ := exists_scaled magnitude
  rw [unitsOf_scaled hcount.le hfull]
  rcases Nat.lt_or_ge own scale with hlt | hle
  · right
    calc count * 2 ^ own < 2 ^ 53 * 2 ^ own := Nat.mul_lt_mul_of_pos_right hcount (Nat.two_pow_pos own)
      _ = 2 ^ (own + 53) := by ring
      _ ≤ 2 ^ (scale + 52) := Nat.pow_le_pow_right Nat.zero_lt_two (by omega)
  · left
    exact Dvd.dvd.mul_left (Nat.pow_dvd_pow 2 hle) count

/-! ### Gaps -/

/-- How far a whole number of units lies from `n / d` of them, times `d`. -/
def gap (n d : Nat) (units : Int) : Nat := (n - units * d : Int).natAbs

/-- On a coarser grid, the gap is that of the count on the grid. -/
theorem gap_mul_pow (n d scale : Nat) (count : Int) :
    gap n d (count * 2 ^ scale) = gap n (d * 2 ^ scale) count := by
  unfold gap
  congr 2
  push_cast
  ring

/-- Below the quotient, larger is nearer. -/
theorem gap_lt_gap {n d : Nat} (hd : 0 < d) {a b : Int} (hab : a < b) (hb : b * d ≤ n) :
    gap n d b < gap n d a := by
  have hmul : a * d < b * d := Int.mul_lt_mul_of_pos_right hab (by omega)
  unfold gap
  omega

/-- Two whole numbers are at least one step apart. -/
theorem le_gap_add_gap {n d : Nat} {a b : Int} (hab : a < b) : d ≤ gap n d a + gap n d b := by
  have hstep : (a + 1) * d ≤ b * d := Int.mul_le_mul_of_nonneg_right hab (by omega)
  rw [Int.add_mul, Int.one_mul] at hstep
  unfold gap
  omega

/-- Rounding a quotient moves it by half a step at most, and by half a step only to an even number. -/
theorem two_mul_gap_roundDiv_le {n d : Nat} (hd : 0 < d) :
    2 * gap n d (roundDiv n d) ≤ d ∧ (2 * gap n d (roundDiv n d) = d → roundDiv n d % 2 = 0) := by
  have hn : ((n / d : Nat) : Int) * d + (n % d : Nat) = n := by
    rw [Int.mul_comm]
    exact_mod_cast Nat.div_add_mod n d
  have hr := Nat.mod_lt n hd
  unfold gap roundDiv
  dsimp only
  generalize n / d = q at hn ⊢
  generalize n % d = r at hn hr ⊢
  have hup : ((q + 1 : Nat) : Int) * d = q * d + d := by
    push_cast
    ring
  split
  · omega
  · split
    · rw [hup]
      omega
    · rcases Nat.mod_two_eq_zero_or_one q with heven | hodd
      · rw [heven, Nat.add_zero]
        omega
      · rw [hodd, hup]
        omega

/-- No whole number lies nearer to a quotient than the rounded one, and with another one just as near the
    rounded one is even. -/
theorem gap_roundDiv_le {n d : Nat} (hd : 0 < d) (k : Int) :
    gap n d (roundDiv n d) ≤ gap n d k ∧
      (gap n d k = gap n d (roundDiv n d) → k ≠ roundDiv n d → roundDiv n d % 2 = 0) := by
  obtain ⟨hhalf, heven⟩ := two_mul_gap_roundDiv_le (n := n) hd
  rcases lt_trichotomy k (roundDiv n d) with hk | rfl | hk
  · have := le_gap_add_gap (n := n) (d := d) hk
    exact ⟨by omega, fun htie _ => heven (by omega)⟩
  · exact ⟨Nat.le_refl _, fun _ hne => absurd rfl hne⟩
  · have := le_gap_add_gap (n := n) (d := d) hk
    exact ⟨by omega, fun htie _ => heven (by omega)⟩

/-! ### The nearest magnitude -/

/-- Where rounding is finite it counts the steps at the scale of the quotient, and above scale zero the
    quotient has 53 bits of them. -/
theorem nearest_scaled {n d : Nat} (hd : 0 < d) (hfinite : nearest n d < infinity) :
    ∃ scale, nearest n d = roundDiv n (d * 2 ^ scale) + scale * fractions ∧
      unitsOf (nearest n d) = roundDiv n (d * 2 ^ scale) * 2 ^ scale ∧
      (0 < scale → d * 2 ^ (scale + 52) ≤ n) := by
  have hupper := lt_scaled (n := n) hd
  have hlower := scaled_le (n := n) hd
  unfold nearest at hfinite ⊢
  dsimp only at hfinite ⊢
  rw [min_lt_iff, or_iff_left (Nat.lt_irrefl _), Nat.pow_eq] at hfinite
  rw [Nat.pow_eq, Nat.min_eq_left hfinite.le]
  generalize Nat.log2 (n / d) - 52 = scale at hupper hlower ⊢
  have hcount := unitsOf_scaled (roundDiv_le_of_lt hd hupper)
    fun hscale => le_roundDiv_of_le hd (hlower hscale)
  exact ⟨scale, rfl, hcount, hlower⟩

/-- A sign makes the value of a magnitude no larger. -/
theorem units_le (y : Binary64) : y.units ≤ unitsOf y.magnitude := by
  unfold units
  split
  · omega
  · exact Int.le_refl _

/-- No double of either sign lies nearer to a quotient than the rounded one, and with another one just as
    near the last bit of the rounded one is zero. -/
theorem gap_nearest_le {n d : Nat} (hd : 0 < d) (hfinite : nearest n d < infinity) (y : Binary64) :
    gap n d (unitsOf (nearest n d)) ≤ gap n d y.units ∧
      (gap n d y.units = gap n d (unitsOf (nearest n d)) → y.units ≠ unitsOf (nearest n d) →
        nearest n d % 2 = 0) := by
  obtain ⟨scale, hmagnitude, hunits, hfull⟩ := nearest_scaled hd hfinite
  have hstep : 0 < d * 2 ^ scale := Nat.mul_pos hd (Nat.two_pow_pos scale)
  have hgap : gap n d (unitsOf (nearest n d)) =
      gap n (d * 2 ^ scale) (roundDiv n (d * 2 ^ scale)) := by
    rw [hunits, ← gap_mul_pow]
    push_cast
    rfl
  have hparity : nearest n d % 2 = roundDiv n (d * 2 ^ scale) % 2 := by
    have hfractions : fractions = 2 ^ 52 := by decide
    rw [hmagnitude, hfractions]
    omega
  rw [hgap, hparity]
  by_cases hdvd : 2 ^ scale ∣ unitsOf y.magnitude
  · -- On the grid of the scale the count decides.
    rw [← natAbs_units, ← Int.natCast_dvd] at hdvd
    obtain ⟨count, hcount⟩ := hdvd
    have hy : y.units = count * 2 ^ scale := by
      rw [hcount, Int.mul_comm]
      push_cast
      rfl
    obtain ⟨hle, heven⟩ := gap_roundDiv_le (n := n) hstep count
    rw [hy, gap_mul_pow]
    refine ⟨hle, fun htie hne => heven htie ?_⟩
    rintro rfl
    apply hne
    rw [hunits]
    push_cast
    rfl
  · -- Off the grid the smallest count of 53 bits lies nearer already.
    have hscale : 0 < scale := by
      apply Nat.pos_of_ne_zero
      rintro rfl
      exact hdvd (Nat.one_dvd _)
    have hsmall : y.units < 2 ^ 52 * 2 ^ scale := by
      have hlt := (dvd_unitsOf_or_lt y.magnitude scale).resolve_left hdvd
      rw [Nat.add_comm, Nat.pow_add] at hlt
      exact lt_of_le_of_lt y.units_le (by exact_mod_cast hlt)
    have hlarge : (2 ^ 52 * 2 ^ scale : Int) * d ≤ n := by
      have hle := hfull hscale
      rw [Nat.add_comm, Nat.pow_add, Nat.mul_comm] at hle
      exact_mod_cast hle
    have hnearer := gap_lt_gap hd hsmall hlarge
    rw [gap_mul_pow] at hnearer
    have hlt := Nat.lt_of_le_of_lt (gap_roundDiv_le hstep (2 ^ 52)).1 hnearer
    exact ⟨hlt.le, fun htie => absurd htie hlt.ne'⟩

/-! ### Correct rounding -/

/-- How far a value lies from a double, in units of 2^-1074. -/
def distance (value : ℚ) (x : Binary64) : ℚ := |value * unitsPerOne - x.units|

/-- The double is the one that a value below the overflow rounds to: finite, without a sign, and no
    farther from the value than any finite double. If one with another value is equally near, the last bit
    is zero. -/
structure RoundsTo (value : ℚ) (x : Binary64) : Prop where
  isFinite : x.isFinite = true
  negative : x.negative = false
  nearest : ∀ y : Binary64, y.isFinite = true → distance value x ≤ distance value y
  even : ∀ y : Binary64, y.isFinite = true → y.units ≠ x.units →
    distance value y = distance value x → x.magnitude % 2 = 0

theorem units_of_not_negative {x : Binary64} (h : x.negative = false) : x.units = unitsOf x.magnitude := by
  rw [units, h, if_neg Bool.false_ne_true]

/-- The distance of a fraction to a double is their gap, over the denominator. -/
theorem distance_eq_gap {n d : Nat} (hd : 0 < d) {value : ℚ} (hvalue : value * unitsPerOne = n / d)
    (x : Binary64) : distance value x = gap n d x.units / d := by
  have hpos : (0 : ℚ) < d := Nat.cast_pos.2 hd
  have hsub : (n : ℚ) / d - x.units = ((n - x.units * d : Int) : ℚ) / d := by
    push_cast
    rw [sub_div, mul_div_cancel_right₀ _ hpos.ne']
  rw [distance, hvalue, hsub, abs_div, abs_of_pos hpos, gap, Nat.cast_natAbs, Int.cast_abs]

/-- Rounding gives the nearest double, ties to even, wherever it is finite. -/
theorem roundsTo_nearest {n d : Nat} (hd : 0 < d) {value : ℚ} (hvalue : value * unitsPerOne = n / d)
    (hfinite : Binary64.nearest n d < infinity) :
    RoundsTo value ⟨false, Binary64.nearest n d, nearest_lt n d⟩ := by
  have hpos : (0 : ℚ) < d := Nat.cast_pos.2 hd
  have hunits : (⟨false, Binary64.nearest n d, nearest_lt n d⟩ : Binary64).units =
      unitsOf (Binary64.nearest n d) := units_of_not_negative rfl
  refine ⟨decide_eq_true hfinite, rfl, ?_, ?_⟩
  · intro y _
    rw [distance_eq_gap hd hvalue, distance_eq_gap hd hvalue, div_le_div_iff_of_pos_right hpos, hunits]
    exact_mod_cast (gap_nearest_le hd hfinite y).1
  · intro y _ hne htie
    rw [distance_eq_gap hd hvalue, distance_eq_gap hd hvalue, div_left_inj' hpos.ne', hunits] at htie
    rw [hunits] at hne
    exact (gap_nearest_le hd hfinite y).2 (by exact_mod_cast htie) hne

/-- Of three numbers the middle one is nearer than the outer two where these are equally near. -/
theorem abs_sub_lt_of_between {v a b c : ℚ} (hab : a < b) (hbc : b < c) (h : |v - c| = |v - a|) :
    |v - b| < |v - a| := by
  rcases abs_eq_abs.1 h with hsame | hopposite
  · linarith
  · rw [abs_of_pos (by linarith : 0 < v - a), abs_lt]
    constructor
    · linarith
    · linarith

namespace RoundsTo

variable {value : ℚ} {x y : Binary64}

/-- Of two doubles to which a value rounds, neither is larger. -/
theorem magnitude_le (hx : RoundsTo value x) (hy : RoundsTo value y) : y.magnitude ≤ x.magnitude := by
  by_contra! hlt
  have hxu := units_of_not_negative hx.negative
  have hyu := units_of_not_negative hy.negative
  have htie : distance value y = distance value x :=
    le_antisymm (hy.nearest x hx.isFinite) (hx.nearest y hy.isFinite)
  have hne : y.units ≠ x.units := by
    rw [hxu, hyu]
    exact_mod_cast (unitsOf_strictMono hlt).ne'
  -- Both are even, so another double lies between the two.
  have hxeven := hx.even y hy.isFinite hne htie
  have hyeven := hy.even x hx.isFinite hne.symm htie.symm
  have hyfinite : y.magnitude < infinity := of_decide_eq_true hy.isFinite
  let z : Binary64 := ⟨false, x.magnitude + 1, by have := y.bounded; omega⟩
  have hz : z.isFinite = true := decide_eq_true (show x.magnitude + 1 < infinity by omega)
  have hzu : z.units = unitsOf (x.magnitude + 1) := units_of_not_negative rfl
  have hxz : x.units < z.units := by
    rw [hxu, hzu]
    exact_mod_cast unitsOf_strictMono (Nat.lt_succ_self x.magnitude)
  have hzy : z.units < y.units := by
    rw [hyu, hzu]
    exact_mod_cast unitsOf_strictMono (show x.magnitude + 1 < y.magnitude by omega)
  have hnearer : distance value z < distance value x :=
    abs_sub_lt_of_between (Int.cast_lt.2 hxz) (Int.cast_lt.2 hzy) htie
  exact absurd (hx.nearest z hz) (not_le.2 hnearer)

/-- A value rounds to one double only. -/
theorem unique (hx : RoundsTo value x) (hy : RoundsTo value y) : x = y := by
  have hmagnitude := Nat.le_antisymm (hy.magnitude_le hx) (hx.magnitude_le hy)
  have hnegative := hx.negative.trans hy.negative.symm
  obtain ⟨negative, magnitude, bounded⟩ := x
  cases hmagnitude
  cases hnegative
  rfl

end RoundsTo

end Calculator.Binary64
