import Mathlib.Tactic.Ring
import TwinSchema.Number.Arithmetic
import TwinSchema.Proofs.Number.Rounding

/-!
# Shortest decimal forms read back

Moving the point of a decimal number changes nothing, so dropping zeros does not
either, and the decimal form chosen for a finite number is read as that number.
-/

namespace TwinSchema.Number

theorem powerOfTen_pos (exponent : Nat) : 0 < Nat.pow 10 exponent :=
  Nat.pow_pos (by decide)

/-- A number has few digits if it is below a power of ten. -/
theorem Decimal.digitCount_le_iff {digits count : Nat} (positive : 0 < count) :
    digitCount digits ≤ count ↔ digits < Nat.pow 10 count :=
  Nat.length_toDigits_le_iff (by decide) positive

/-- Each zero at its end is one more digit of a number. -/
theorem Decimal.digitCount_shift {digits : Nat} (positive : 0 < digits)
    (zeros : Nat) :
    digitCount (digits * Nat.pow 10 zeros) = digitCount digits + zeros := by
  induction zeros with
  | zero => simp
  | succ zeros ih =>
      have larger : digits * Nat.pow 10 (zeros + 1) =
          10 * (digits * Nat.pow 10 zeros) + 0 := by
        rw [Nat.pow_eq, Nat.pow_succ, Nat.pow_eq]
        ring
      have nonzero : 0 < digits * Nat.pow 10 zeros :=
        Nat.mul_pos positive (powerOfTen_pos zeros)
      rw [digitCount] at ih ⊢
      rw [larger, ← Nat.toDigits_append_toDigits (by decide) nonzero (by decide),
        List.length_append, ih, Nat.toDigits_zero]
      simp only [List.length_singleton]
      omega

theorem Binary64.ofDecimal_shift (negative : Bool) (digits zeros : Nat)
    (exponent : Int) :
    ofDecimal negative (digits * Nat.pow 10 zeros) (exponent - zeros) =
      ofDecimal negative digits exponent := by
  by_cases empty : digits = 0
  · simp [ofDecimal, empty]
  · have positive : 0 < digits := Nat.pos_of_ne_zero empty
    have nonzero : digits * Nat.pow 10 zeros ≠ 0 :=
      Nat.mul_ne_zero empty (Nat.ne_of_gt (powerOfTen_pos zeros))
    have places :
        ((Nat.toDigits 10 (digits * Nat.pow 10 zeros)).length : Int) +
          (exponent - zeros) = (Nat.toDigits 10 digits).length + exponent := by
      have count := Decimal.digitCount_shift positive zeros
      unfold Decimal.digitCount at count
      rw [count]
      omega
    have quotients :
        nearestOrdinal ⟨digits * Nat.pow 10 zeros *
            Nat.pow 10 (exponent - zeros).toNat,
          Nat.pow 10 (-(exponent - zeros)).toNat⟩ =
        nearestOrdinal ⟨digits * Nat.pow 10 exponent.toNat,
          Nat.pow 10 (-exponent).toNat⟩ := by
      apply nearestOrdinal_eq_of_same (powerOfTen_pos _) (powerOfTen_pos _)
      have exponents : zeros + (exponent - zeros).toNat + (-exponent).toNat =
          exponent.toNat + (-(exponent - zeros)).toNat := by omega
      simp only [Nat.pow_eq, Nat.mul_assoc, ← Nat.pow_add]
      rw [← exponents, Nat.add_assoc]
    simp only [ofDecimal, places, empty, nonzero, decide_false,
      Binary64.ofQuotient, quotients]

namespace Decimal

/-- The number that a decimal form is read as. -/
def toBinary (negative : Bool) (decimal : Decimal) : Binary64 :=
  .ofDecimal negative decimal.digits decimal.exponent

theorem toBinary_dropZeros (negative : Bool) (fuel : Nat) (decimal : Decimal) :
    (dropZeros fuel decimal).toBinary negative = decimal.toBinary negative := by
  induction fuel generalizing decimal with
  | zero => rfl
  | succ fuel ih =>
      simp only [dropZeros]
      split
      next trailing =>
        have divisible : decimal.digits % 10 = 0 := by simp_all
        have whole : decimal.digits / 10 * Nat.pow 10 1 = decimal.digits :=
          Nat.div_mul_cancel (Nat.dvd_of_mod_eq_zero divisible)
        have moved := Binary64.ofDecimal_shift negative (decimal.digits / 10) 1
          (decimal.exponent + 1)
        rw [whole, show decimal.exponent + 1 - ((1 : Nat) : Int) =
          decimal.exponent by omega] at moved
        rw [ih]
        exact moved.symm
      next => rfl

/-- Trailing zeros do not change what is read. -/
theorem toBinary_normalized (negative : Bool) (decimal : Decimal) :
    decimal.normalized.toBinary negative = decimal.toBinary negative :=
  toBinary_dropZeros negative _ decimal

end Decimal

theorem Magnitude.units_bounds {ordinal limit : Nat} (nonzero : ordinal ≠ 0)
    (scale : (Magnitude.ofOrdinal ordinal).scale ≤ limit) :
    1 ≤ (Magnitude.ofOrdinal ordinal).significand *
        Nat.pow 2 (Magnitude.ofOrdinal ordinal).scale ∧
      (Magnitude.ofOrdinal ordinal).significand *
        Nat.pow 2 (Magnitude.ofOrdinal ordinal).scale <
          2 * binadeSize * Nat.pow 2 limit := by
  have remainder := Nat.mod_lt ordinal (show 0 < binadeSize by decide)
  have significand : 0 < (Magnitude.ofOrdinal ordinal).significand ∧
      (Magnitude.ofOrdinal ordinal).significand < 2 * binadeSize := by
    rw [ofOrdinal]
    split <;> dsimp only <;> omega
  constructor
  · exact Nat.mul_pos significand.1 (powerOfTwo_pos _)
  · exact Nat.lt_of_lt_of_le
      (Nat.mul_lt_mul_of_pos_right significand.2 (powerOfTwo_pos _))
      (Nat.mul_le_mul_left _ (Nat.pow_le_pow_right (by decide) scale))

theorem Magnitude.scale_le {ordinal : Nat} (finite : ordinal < magnitudeCount) :
    (Magnitude.ofOrdinal ordinal).scale ≤ 2045 := by
  have quotient : ordinal / binadeSize < 2047 :=
    Nat.div_lt_of_lt_mul (by rw [Nat.mul_comm]; exact finite)
  rw [ofOrdinal]
  split <;> dsimp only <;> omega

theorem placesPerUnit_pos : 0 < placesPerUnit := by decide +kernel

/-- Bounds on the places of a unit bound the digits of every exact form. -/
theorem Magnitude.digitCount_exactDecimal {ordinal limit low high : Nat}
    (nonzero : ordinal ≠ 0)
    (scale : (Magnitude.ofOrdinal ordinal).scale ≤ limit)
    (lowPositive : 0 < low) (highPositive : 0 < high)
    (least : Nat.pow 10 low ≤ placesPerUnit)
    (greatest :
      2 * binadeSize * Nat.pow 2 limit * placesPerUnit ≤ Nat.pow 10 high) :
    low < Decimal.digitCount (Magnitude.ofOrdinal ordinal).exactDecimal.digits ∧
      Decimal.digitCount (Magnitude.ofOrdinal ordinal).exactDecimal.digits ≤
        high := by
  obtain ⟨positive, bounded⟩ := units_bounds nonzero scale
  rw [exactDecimal]
  dsimp only
  constructor
  · rw [← Nat.not_le, Decimal.digitCount_le_iff lowPositive, Nat.not_lt]
    exact Nat.le_trans least (Nat.le_mul_of_pos_left _ positive)
  · rw [Decimal.digitCount_le_iff highPositive]
    exact Nat.lt_of_lt_of_le
      (Nat.mul_lt_mul_of_pos_right bounded placesPerUnit_pos) greatest

theorem Magnitude.nearestOrdinal_exactDecimal (ordinal : Nat) {lowest : Nat}
    (split : lowest = placesPerUnit * unitsPerOne) :
    nearestOrdinal ⟨(Magnitude.ofOrdinal ordinal).exactDecimal.digits, lowest⟩ =
      ordinal := by
  have same := nearestOrdinal_scale
    (Magnitude.ofOrdinal ordinal).toQuotient.numerator
    (Magnitude.ofOrdinal ordinal).toQuotient.denominator placesPerUnit_pos
  dsimp only [toQuotient] at same
  rw [split, Nat.mul_comm placesPerUnit]
  exact same.trans (nearestOrdinal_magnitude ordinal)

theorem Decimal.toBinary_within (negative : Bool) {decimal : Decimal}
    (nonzero : decimal.digits ≠ 0)
    (low : -Binary64.decimalReach ≤
      digitCount decimal.digits + decimal.exponent)
    (high : digitCount decimal.digits + decimal.exponent ≤
      Binary64.decimalReach) :
    decimal.toBinary negative =
      .ofQuotient negative
        ⟨decimal.digits * Nat.pow 10 decimal.exponent.toNat,
          Nat.pow 10 (-decimal.exponent).toNat⟩ := by
  rw [digitCount] at low high
  simp only [toBinary, Binary64.ofDecimal, nonzero, decide_false, Bool.false_or,
    decide_eq_true_eq, if_neg (Int.not_lt.mpr low), if_neg (Int.not_lt.mpr high)]

theorem Magnitude.toBinary_exactDecimal (negative : Bool) {ordinal : Nat}
    (nonzero : ordinal ≠ 0) (finite : ordinal < magnitudeCount) :
    (Magnitude.ofOrdinal ordinal).exactDecimal.toBinary negative =
      .ofOrdinal negative ordinal := by
  have reach : 673 < _ ∧ _ ≤ 1474 :=
    digitCount_exactDecimal nonzero (scale_le finite) (by decide) (by decide)
      (by decide +kernel) (by decide +kernel)
  have digitsNonzero : (Magnitude.ofOrdinal ordinal).exactDecimal.digits ≠ 0 := by
    have := (units_bounds nonzero (scale_le finite)).1
    exact Nat.mul_ne_zero (by omega) (Nat.ne_of_gt placesPerUnit_pos)
  have exponent : (Magnitude.ofOrdinal ordinal).exactDecimal.exponent = -1074 :=
    rfl
  have exact := nearestOrdinal_exactDecimal ordinal
    (show Nat.pow 10 (- -1074 : Int).toNat = placesPerUnit * unitsPerOne by
      decide +kernel)
  rw [Decimal.toBinary_within negative digitsNonzero, exponent]
  · rw [Binary64.ofQuotient, show Nat.pow 10 (-1074 : Int).toNat = 1 from rfl,
      Nat.mul_one, exact]
  · rw [exponent, Binary64.decimalReach]
    omega
  · rw [exponent, Binary64.decimalReach]
    omega

namespace Binary64

theorem negate_ofOrdinal (ordinal : Nat) :
    (ofOrdinal false ordinal).negate = ofOrdinal true ordinal := by
  unfold ofOrdinal
  split <;> rfl

/-- A sign goes through reading. -/
theorem negate_ofDecimal (digits : Nat) (exponent : Int) :
    (ofDecimal false digits exponent).negate =
      ofDecimal true digits exponent := by
  unfold ofDecimal ofQuotient
  dsimp only
  split
  · exact negate_ofOrdinal 0
  · split
    · rfl
    · exact negate_ofOrdinal _

end Binary64

/-- What reads back does so with either sign. -/
theorem Decimal.toBinary_of_readsBack (negative : Bool) {ordinal : Nat}
    {decimal : Decimal} (reads : readsBack ordinal decimal = true) :
    decimal.toBinary negative = .ofOrdinal negative ordinal := by
  have positive : Binary64.ofDecimal false decimal.digits decimal.exponent =
      .ofOrdinal false ordinal := by simpa [readsBack] using reads
  cases negative with
  | false => exact positive
  | true =>
      rw [toBinary]
      rw [← Binary64.negate_ofDecimal, positive, Binary64.negate_ofOrdinal]

/-- The search for a short form ends with one that reads back. -/
theorem readsBack_of_shortestFrom {ordinal : Nat} {quotient : Quotient}
    {count precision : Nat} {decimal : Decimal}
    (found : shortestFrom ordinal quotient count precision = some decimal) :
    readsBack ordinal decimal = true := by
  induction count generalizing precision with
  | zero => simp [shortestFrom] at found
  | succ count ih =>
      simp only [shortestFrom] at found
      split at found
      next nearest hit =>
        obtain rfl : nearest = decimal := by simpa using found
        exact List.find?_some hit
      next => exact ih found

/-- The shortest decimal form of a finite number is read as that number. -/
theorem toBinary_shortestDecimal (negative : Bool)
    (ordinal : Fin magnitudeCount) :
    (shortestDecimal ordinal).toBinary negative = .finite negative ordinal := by
  have finite : Binary64.ofOrdinal negative ordinal = .finite negative ordinal := by
    simp [Binary64.ofOrdinal]
  rw [← finite, shortestDecimal]
  split
  next zero => simp [Decimal.toBinary, Binary64.ofDecimal, zero]
  next nonzero =>
    dsimp only
    rw [Decimal.toBinary_normalized]
    cases search : shortestFrom ordinal
        (Magnitude.ofOrdinal ordinal).toQuotient maximalPrecision 1 with
    | none =>
        exact Magnitude.toBinary_exactDecimal negative nonzero ordinal.isLt
    | some decimal =>
        exact Decimal.toBinary_of_readsBack negative
          (readsBack_of_shortestFrom search)

end TwinSchema.Number
