import Mathlib.Tactic.Ring
import TwinSchema.Number.Shortest

/-!
# Rounding to binary64

The nearest number depends on a quotient alone and not on the terms in which it
is given, and a quotient that is a magnitude is rounded to itself.
-/

namespace TwinSchema.Number

/-- Rounding does not see a factor common to both terms. -/
theorem roundHalfEven_scale (numerator denominator : Nat) {factor : Nat}
    (positive : 0 < factor) :
    roundHalfEven (numerator * factor) (denominator * factor) =
      roundHalfEven numerator denominator := by
  have remainder :
      2 * (numerator % denominator * factor) =
        2 * (numerator % denominator) * factor := by ring
  simp only [roundHalfEven, Nat.mul_div_mul_right _ _ positive,
    Nat.mul_mod_mul_right, remainder, Nat.mul_lt_mul_right positive]

theorem roundHalfEven_mul (value : Nat) {denominator : Nat}
    (positive : 0 < denominator) :
    roundHalfEven (value * denominator) denominator = value := by
  simp [roundHalfEven, Nat.mul_div_cancel _ positive, positive]

/-- The nearest ordinal does not see a factor common to both terms. -/
theorem nearestOrdinal_scale (numerator denominator : Nat) {factor : Nat}
    (positive : 0 < factor) :
    nearestOrdinal ⟨numerator * factor, denominator * factor⟩ =
      nearestOrdinal ⟨numerator, denominator⟩ := by
  have shifted (unit : Nat) :
      numerator * factor * unit = numerator * unit * factor := by ring
  have widened (unit : Nat) :
      denominator * factor * unit = denominator * unit * factor := by ring
  have scales :
      roundingScale ⟨numerator * factor, denominator * factor⟩ =
        roundingScale ⟨numerator, denominator⟩ := by
    simp only [roundingScale, shifted, Nat.mul_div_mul_right _ _ positive]
  simp only [nearestOrdinal, scales, shifted, widened,
    roundHalfEven_scale _ _ positive]

theorem nearestOrdinal_eq_of_same {first second : Quotient}
    (firstPositive : 0 < first.denominator)
    (secondPositive : 0 < second.denominator)
    (same : first.numerator * second.denominator =
      second.numerator * first.denominator) :
    nearestOrdinal first = nearestOrdinal second := by
  calc nearestOrdinal first
      = nearestOrdinal ⟨first.numerator * second.denominator,
          first.denominator * second.denominator⟩ :=
        (nearestOrdinal_scale _ _ secondPositive).symm
    _ = nearestOrdinal ⟨second.numerator * first.denominator,
          second.denominator * first.denominator⟩ := by
        rw [same, Nat.mul_comm first.denominator]
    _ = nearestOrdinal second := nearestOrdinal_scale _ _ firstPositive

theorem powerOfTwo_pos (exponent : Nat) : 0 < Nat.pow 2 exponent :=
  Nat.pow_pos (by decide)

theorem unitsPerOne_pos : 0 < unitsPerOne := by decide +kernel

/-- A magnitude beyond the evenly spaced ones has 53 bits before its scale. -/
theorem Magnitude.log2_units {ordinal : Nat} (large : 2 * binadeSize ≤ ordinal) :
    ((Magnitude.ofOrdinal ordinal).significand *
      Nat.pow 2 (Magnitude.ofOrdinal ordinal).scale).log2 =
        52 + (Magnitude.ofOrdinal ordinal).scale := by
  have remainder := Nat.mod_lt ordinal (show 0 < binadeSize by decide)
  have size : binadeSize = 2 ^ 52 := rfl
  have notSmall : ¬ordinal < 2 * binadeSize := by omega
  simp only [ofOrdinal, if_neg notSmall]
  set scale := ordinal / binadeSize - 1
  have positive := powerOfTwo_pos scale
  have nonzero : (binadeSize + ordinal % binadeSize) * Nat.pow 2 scale ≠ 0 :=
    Nat.mul_ne_zero (by omega) (by omega)
  rw [Nat.log2_eq_iff nonzero, Nat.pow_add]
  constructor
  · exact Nat.mul_le_mul_right _ (by omega)
  · rw [show 52 + scale + 1 = 53 + scale by omega, Nat.pow_add]
    exact Nat.mul_lt_mul_of_pos_right (by omega) positive

/-- A magnitude is an exact multiple of the spacing at which it is rounded. -/
theorem roundingScale_magnitude (ordinal : Nat) :
    roundingScale (Magnitude.ofOrdinal ordinal).toQuotient =
      (Magnitude.ofOrdinal ordinal).scale := by
  rw [roundingScale, Magnitude.toQuotient]
  dsimp only
  rw [Nat.mul_div_cancel _ unitsPerOne_pos]
  by_cases small : ordinal < 2 * binadeSize
  · simp [Magnitude.ofOrdinal, small]
  · have large : 2 * binadeSize ≤ ordinal := Nat.le_of_not_lt small
    have bits := Magnitude.log2_units large
    have nonzero : (Magnitude.ofOrdinal ordinal).significand *
        Nat.pow 2 (Magnitude.ofOrdinal ordinal).scale ≠ 0 := by
      intro zero
      rw [zero, Nat.log2_zero] at bits
      omega
    have scaled : 1 ≤ (Magnitude.ofOrdinal ordinal).scale := by
      have : 2 ≤ ordinal / binadeSize :=
        (Nat.le_div_iff_mul_le (by decide)).mpr large
      simp only [Magnitude.ofOrdinal, if_neg small]
      omega
    have atLeast : ¬(Magnitude.ofOrdinal ordinal).significand *
        Nat.pow 2 (Magnitude.ofOrdinal ordinal).scale < 2 * binadeSize := by
      intro below
      have bound := (Nat.log2_lt nonzero).mpr (show _ < 2 ^ 53 from below)
      omega
    rw [if_neg atLeast, bits]
    omega

theorem nearestOrdinal_magnitude (ordinal : Nat) :
    nearestOrdinal (Magnitude.ofOrdinal ordinal).toQuotient = ordinal := by
  have exact :
      roundHalfEven
        ((Magnitude.ofOrdinal ordinal).toQuotient.numerator * unitsPerOne)
        ((Magnitude.ofOrdinal ordinal).toQuotient.denominator *
          Nat.pow 2 (Magnitude.ofOrdinal ordinal).scale) =
        (Magnitude.ofOrdinal ordinal).significand := by
    rw [Magnitude.toQuotient]
    dsimp only
    rw [Nat.mul_assoc, Nat.mul_comm (Nat.pow 2 (Magnitude.ofOrdinal _).scale)]
    exact roundHalfEven_mul _ (Nat.mul_pos unitsPerOne_pos (powerOfTwo_pos _))
  rw [nearestOrdinal, roundingScale_magnitude, exact]
  by_cases small : ordinal < 2 * binadeSize
  · simp [Magnitude.ofOrdinal, small]
  · have twice : 2 ≤ ordinal / binadeSize :=
      (Nat.le_div_iff_mul_le (by decide)).mpr (Nat.le_of_not_lt small)
    have split := Nat.div_add_mod' ordinal binadeSize
    obtain ⟨scale, quotient⟩ := Nat.exists_eq_add_of_le twice
    simp only [Magnitude.ofOrdinal, if_neg small]
    rw [quotient] at split ⊢
    rw [show 2 + scale - 1 = scale + 1 by omega]
    calc (scale + 1) * binadeSize + (binadeSize + ordinal % binadeSize)
        = (2 + scale) * binadeSize + ordinal % binadeSize := by ring
      _ = ordinal := split

end TwinSchema.Number
