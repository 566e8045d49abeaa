/-
Module: Calculator.Proofs.Rounding
Layer: Proofs
Purpose: Two facts about rounding to the nearest double. A value that is a double rounds to itself,
  and a quotient rounds to an infinity exactly from 2^1024 - 2^970 on, half a step above the largest
  finite double. Values are counted in units of 2^-1074, where the threshold is 2^2098 - 2^2044.
Imports: Calculator.Binary64.Rounding, Mathlib.Tactic.Ring
Trusted boundary: none (fully proved)
Main exports: Binary64.unitsOf_scaled, Binary64.exists_scaled, Binary64.nearest_unitsOf,
  Binary64.nearest_lt_infinity_iff
-/
import Calculator.Binary64.Rounding
import Mathlib.Tactic.Ring

namespace Calculator.Binary64

/-! ### The nearest natural number -/

/-- A multiple is divided without rounding. -/
theorem roundDiv_mul (a : Nat) {d : Nat} (hd : 0 < d) : roundDiv (a * d) d = a := by
  simp [roundDiv, Nat.mul_div_cancel a hd, hd]

/-- Rounding never goes below the quotient. -/
theorem div_le_roundDiv (n d : Nat) : n / d ≤ roundDiv n d := by
  unfold roundDiv
  dsimp only
  split
  · exact Nat.le_refl _
  · split
    · exact Nat.le_succ _
    · exact Nat.le_add_right _ _

/-- Rounding never goes beyond the next integer. -/
theorem roundDiv_le_succ (n d : Nat) : roundDiv n d ≤ n / d + 1 := by
  unfold roundDiv
  dsimp only
  split
  · exact Nat.le_succ _
  · split
    · exact Nat.le_refl _
    · have := Nat.mod_lt (n / d) (Nat.zero_lt_two)
      omega

/-- An even number is missed from below exactly by the quotients that are more than a half short of
    it: at the half itself the tie goes up to the even number. -/
theorem roundDiv_lt_even_iff {n d k : Nat} (hd : 0 < d) (hk : k % 2 = 0) :
    roundDiv n d < k ↔ 2 * n + d < 2 * k * d := by
  have hn := Nat.div_add_mod n d
  have hr := Nat.mod_lt n hd
  have hlow := div_le_roundDiv n d
  have hhigh := roundDiv_le_succ n d
  generalize hq : n / d = q at hn hlow hhigh
  generalize hm : n % d = r at hn hr
  have hproduct : 2 * k * d = 2 * (d * k) := by rw [Nat.mul_assoc, Nat.mul_comm k]
  rw [hproduct]
  rcases Nat.lt_trichotomy (q + 1) k with hlt | heq | hgt
  · -- The quotient lies a whole step below.
    have hstep : d * (q + 2) ≤ d * k := Nat.mul_le_mul_left d hlt
    rw [Nat.mul_add] at hstep
    refine iff_of_true ?_ ?_
    · omega
    · omega
  · -- Only here does the remainder decide.
    subst heq
    have hround : roundDiv n d = if 2 * r < d then q else q + 1 := by
      unfold roundDiv
      simp only [hq, hm]
      split
      · rfl
      · split
        · rfl
        · omega
    rw [hround, Nat.mul_succ]
    split
    · refine iff_of_true (Nat.lt_succ_self q) ?_
      omega
    · refine iff_of_false (Nat.lt_irrefl _) ?_
      omega
  · have hstep : d * k ≤ d * q := Nat.mul_le_mul_left d (Nat.le_of_lt_succ hgt)
    refine iff_of_false ?_ ?_
    · omega
    · omega

/-! ### Magnitudes by scale

A magnitude is a count of steps and the scale of the steps. The count has at most 53 bits, and all of them
above scale zero. The carry to 2^53 steps is the first count of the next scale, with the same value. -/

/-- A magnitude is a count of steps, and its scale the size of a step. -/
theorem unitsOf_scaled {count scale : Nat} (hcount : count ≤ 2 ^ 53)
    (hfull : 0 < scale → 2 ^ 52 ≤ count) :
    unitsOf (count + scale * fractions) = count * 2 ^ scale := by
  have hfractions : fractions = 2 ^ 52 := by decide
  rw [unitsOf, hfractions, Nat.pow_eq]
  rcases Nat.lt_or_ge count (2 ^ 52) with hsmall | hlarge
  · obtain rfl : scale = 0 := by omega
    rw [if_pos (by omega), Nat.zero_mul, Nat.add_zero, Nat.pow_zero, Nat.mul_one]
  · rw [if_neg (by omega)]
    rcases Nat.lt_or_eq_of_le hcount with hlt | rfl
    · have hexponent : (count + scale * 2 ^ 52) / 2 ^ 52 - 1 = scale := by omega
      have hfraction : 2 ^ 52 + (count + scale * 2 ^ 52) % 2 ^ 52 = count := by omega
      rw [hexponent, hfraction]
    · have hexponent : (2 ^ 53 + scale * 2 ^ 52) / 2 ^ 52 - 1 = scale + 1 := by omega
      have hfraction : 2 ^ 52 + (2 ^ 53 + scale * 2 ^ 52) % 2 ^ 52 = 2 ^ 52 := by omega
      rw [hexponent, hfraction]
      ring

/-- Every magnitude is a count of steps of some scale, and the count has 53 bits unless the scale is
    0. -/
theorem exists_scaled (magnitude : Nat) :
    ∃ count scale, magnitude = count + scale * fractions ∧ count < 2 ^ 53 ∧
      (0 < scale → 2 ^ 52 ≤ count) := by
  have hfractions : fractions = 2 ^ 52 := by decide
  rcases Nat.lt_or_ge magnitude fractions with hsmall | hlarge
  · exact ⟨magnitude, 0, by omega, by omega, by omega⟩
  · refine ⟨fractions + magnitude % fractions, magnitude / fractions - 1, ?_, ?_, ?_⟩
    · rw [hfractions] at *
      omega
    · rw [hfractions]
      omega
    · omega

/-! ### Doubles round to themselves -/

/-- With 53 bits in the count, the scale can be told from the size of the number. -/
theorem log2_mul_two_pow {f k : Nat} (hlow : 2 ^ 52 ≤ f) (hhigh : f < 2 ^ 53) :
    Nat.log2 (f * 2 ^ k) = 52 + k := by
  have hpos : 0 < 2 ^ k := Nat.two_pow_pos k
  have hne : f * 2 ^ k ≠ 0 := Nat.mul_ne_zero (by omega) hpos.ne'
  rw [Nat.log2_eq_iff hne]
  constructor
  · rw [Nat.pow_add]
    exact Nat.mul_le_mul_right _ hlow
  · rw [show 52 + k + 1 = 53 + k by omega, Nat.pow_add]
    exact Nat.mul_lt_mul_of_pos_right hhigh hpos

/-- The exact value of a finite magnitude, over any denominator, rounds to the magnitude. -/
theorem nearest_unitsOf {m d : Nat} (hm : m < infinity) (hd : 0 < d) :
    nearest (unitsOf m * d) d = m := by
  obtain ⟨count, scale, rfl, hcount, hfull⟩ := exists_scaled m
  -- The scale of the magnitude is the scale of the rounding.
  have hscale : Nat.log2 (count * 2 ^ scale) - 52 = scale := by
    rcases Nat.eq_zero_or_pos scale with rfl | hpos
    · have hlog : Nat.log2 count < 53 := by
        by_cases hzero : count = 0
        · subst hzero
          decide
        · exact (Nat.log2_lt hzero).2 hcount
      rw [Nat.pow_zero, Nat.mul_one]
      omega
    · rw [log2_mul_two_pow (hfull hpos) hcount]
      omega
  have hround : roundDiv (count * 2 ^ scale * d) (d * 2 ^ scale) = count := by
    rw [Nat.mul_assoc, Nat.mul_comm (2 ^ scale) d]
    exact roundDiv_mul _ (Nat.mul_pos hd (Nat.two_pow_pos scale))
  unfold nearest
  dsimp only
  rw [unitsOf_scaled hcount.le hfull, Nat.mul_div_cancel _ hd, hscale, Nat.pow_eq, hround]
  exact Nat.min_eq_left hm.le

/-! ### Overflow -/

/-- At the scale of the rounding a quotient has at most 53 bits. -/
theorem lt_scaled {n d : Nat} (hd : 0 < d) : n < d * 2 ^ (Nat.log2 (n / d) - 52 + 53) := by
  rw [Nat.mul_comm, ← Nat.div_lt_iff_lt_mul hd]
  calc n / d < 2 ^ (Nat.log2 (n / d) + 1) := Nat.lt_log2_self
    _ ≤ 2 ^ (Nat.log2 (n / d) - 52 + 53) := Nat.pow_le_pow_right Nat.zero_lt_two (by omega)

/-- It has exactly so many if the scale is not zero. -/
theorem scaled_le {n d : Nat} (hd : 0 < d) (hscale : 0 < Nat.log2 (n / d) - 52) :
    d * 2 ^ (Nat.log2 (n / d) - 52 + 52) ≤ n := by
  have hne : n / d ≠ 0 := by
    intro hzero
    rw [hzero] at hscale
    exact absurd hscale (by decide)
  rw [Nat.mul_comm, ← Nat.le_div_iff_mul_le hd, Nat.sub_add_cancel (by omega)]
  exact Nat.log2_self_le hne

/-- A rounded quotient of at most 53 bits can carry, but not further. -/
theorem roundDiv_le_of_lt {n d scale : Nat} (hd : 0 < d) (h : n < d * 2 ^ (scale + 53)) :
    roundDiv n (d * 2 ^ scale) ≤ 2 ^ 53 := by
  have hunit : 0 < d * 2 ^ scale := Nat.mul_pos hd (Nat.two_pow_pos scale)
  refine Nat.le_trans (roundDiv_le_succ _ _) ?_
  rw [Nat.succ_le_iff, Nat.div_lt_iff_lt_mul hunit]
  calc n < d * 2 ^ (scale + 53) := h
    _ = 2 ^ 53 * (d * 2 ^ scale) := by ring

/-- A number with that many bits keeps them when it is rounded. -/
theorem le_roundDiv_of_le {n d scale : Nat} (hd : 0 < d) (h : d * 2 ^ (scale + 52) ≤ n) :
    2 ^ 52 ≤ roundDiv n (d * 2 ^ scale) := by
  have hunit : 0 < d * 2 ^ scale := Nat.mul_pos hd (Nat.two_pow_pos scale)
  refine Nat.le_trans ?_ (div_le_roundDiv _ _)
  rw [Nat.le_div_iff_mul_le hunit]
  calc 2 ^ 52 * (d * 2 ^ scale) = d * 2 ^ (scale + 52) := by ring
    _ ≤ n := h

/-- Where a rounded quotient passes a bound on its exponent. The carry out of the fraction counts,
    and so does the tie just before it. -/
theorem roundDiv_scaled_lt_iff {n d : Nat} (hd : 0 < d) (top : Nat) :
    roundDiv n (d * 2 ^ (Nat.log2 (n / d) - 52)) + (Nat.log2 (n / d) - 52) * fractions <
        (top + 3) * fractions ↔
      n < d * ((2 ^ 54 - 1) * 2 ^ top) := by
  have hfractions : fractions = 2 ^ 52 := by decide
  have hupper := lt_scaled (n := n) hd
  have hlower := scaled_le (n := n) hd
  generalize Nat.log2 (n / d) - 52 = scale at hupper hlower ⊢
  rcases Nat.lt_trichotomy scale (top + 1) with hlt | rfl | hgt
  · -- Below the last exponent a carry stays under the bound.
    have hquotient := roundDiv_le_of_lt hd hupper
    have hsmall : n < d * ((2 ^ 54 - 1) * 2 ^ top) := by
      refine Nat.lt_of_lt_of_le hupper (Nat.mul_le_mul_left d ?_)
      calc 2 ^ (scale + 53) ≤ 2 ^ (top + 53) := Nat.pow_le_pow_right Nat.zero_lt_two (by omega)
        _ = 2 ^ 53 * 2 ^ top := by ring
        _ ≤ (2 ^ 54 - 1) * 2 ^ top := Nat.mul_le_mul_right _ (by decide)
    have hexponent : scale * fractions ≤ top * fractions := Nat.mul_le_mul_right _ (by omega)
    refine iff_of_true ?_ hsmall
    rw [hfractions] at *
    omega
  · -- At the last exponent the bound is the carry.
    have hunit : 0 < d * 2 ^ (top + 1) := Nat.mul_pos hd (Nat.two_pow_pos _)
    have hcarry : roundDiv n (d * 2 ^ (top + 1)) + (top + 1) * fractions < (top + 3) * fractions ↔
        roundDiv n (d * 2 ^ (top + 1)) < 2 ^ 53 := by
      rw [hfractions]
      omega
    rw [hcarry, roundDiv_lt_even_iff hunit (by decide), Nat.pow_succ, ← Nat.mul_assoc d,
      Nat.mul_left_comm d]
    omega
  · -- Above it the quotient alone passes the bound.
    have hlarge : d * ((2 ^ 54 - 1) * 2 ^ top) ≤ n := by
      refine Nat.le_trans (Nat.mul_le_mul_left d ?_) (hlower (by omega))
      calc (2 ^ 54 - 1) * 2 ^ top ≤ 2 ^ 54 * 2 ^ top := Nat.mul_le_mul_right _ (by decide)
        _ = 2 ^ (top + 54) := by ring
        _ ≤ 2 ^ (scale + 52) := Nat.pow_le_pow_right Nat.zero_lt_two (by omega)
    have hquotient := le_roundDiv_of_le hd (hlower (by omega))
    have hexponent : (top + 2) * fractions ≤ scale * fractions := Nat.mul_le_mul_right _ (by omega)
    refine iff_of_false ?_ (Nat.not_lt.2 hlarge)
    rw [hfractions] at *
    omega

/-- A quotient rounds to a finite double exactly below (2^54 - 1) * 2^970, here in units. -/
theorem nearest_lt_infinity_iff {n d : Nat} (hd : 0 < d) :
    nearest n d < infinity ↔ n < d * ((2 ^ 54 - 1) * 2 ^ 2044) := by
  unfold nearest
  dsimp only
  rw [show infinity = (2044 + 3) * fractions by decide, min_lt_iff, or_iff_left (Nat.lt_irrefl _),
    Nat.pow_eq]
  exact roundDiv_scaled_lt_iff hd 2044

end Calculator.Binary64
