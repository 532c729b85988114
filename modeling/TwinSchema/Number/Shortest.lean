import TwinSchema.Number.Binary64

/-!
# Shortest decimal forms

Every finite magnitude has decimal forms that read back as itself. This module
chooses the one with the fewest digits, and among those the nearest.
-/

namespace TwinSchema.Number

/-- The decimal number `digits * 10 ^ exponent`. -/
structure Decimal where
  digits : Nat
  exponent : Int
  deriving DecidableEq, Repr

namespace Decimal

/-- How many digits a natural number has; zero has one. -/
def digitCount (number : Nat) : Nat :=
  (Nat.toDigits 10 number).length

/-- Drops up to `fuel` trailing zeros. -/
def dropZeros : (fuel : Nat) → Decimal → Decimal
  | 0, decimal => decimal
  | fuel + 1, decimal =>
      if decimal.digits ≠ 0 && decimal.digits % 10 = 0 then
        dropZeros fuel ⟨decimal.digits / 10, decimal.exponent + 1⟩
      else decimal

/-- The same number without trailing zeros among its digits. -/
def normalized (decimal : Decimal) : Decimal :=
  dropZeros (digitCount decimal.digits) decimal

/-- The place of the leading digit: one for tens, zero for units, minus one for
tenths. -/
def leadingPlace (decimal : Decimal) : Int :=
  digitCount decimal.digits - 1 + decimal.exponent

end Decimal

/-- The place of the leading digit of a positive quotient. -/
def Quotient.leadingPlace (quotient : Quotient) : Int :=
  if quotient.denominator ≤ quotient.numerator then
    Decimal.digitCount (quotient.numerator / quotient.denominator) - 1
  else
    -(Decimal.digitCount ((quotient.denominator - 1) / quotient.numerator) : Int)

/-- The quotient in units of a power of ten. -/
def Quotient.inUnits (quotient : Quotient) (exponent : Int) : Quotient :=
  ⟨quotient.numerator * Nat.pow 10 (-exponent).toNat,
    quotient.denominator * Nat.pow 10 exponent.toNat⟩

/-- Whether a decimal number reads back as the magnitude with a given ordinal.
-/
def readsBack (ordinal : Nat) (decimal : Decimal) : Bool :=
  Binary64.ofDecimal false decimal.digits decimal.exponent ==
    Binary64.ofOrdinal false ordinal

/-- The multiples of a power of ten that neighbour a quotient, nearer one first;
of two equally near ones the even one comes first. -/
def neighbours (quotient : Quotient) (exponent : Int) : List Decimal :=
  let units := quotient.inUnits exponent
  let floor := units.numerator / units.denominator
  let nearest := roundHalfEven units.numerator units.denominator
  let other := if nearest = floor then floor + 1 else floor
  [⟨nearest, exponent⟩, ⟨other, exponent⟩]

/-- The first decimal form that reads back, where `count` further numbers of
digits are tried, starting at `precision`. -/
def shortestFrom (ordinal : Nat) (quotient : Quotient) :
    (count precision : Nat) → Option Decimal
  | 0, _ => none
  | count + 1, precision =>
      let exponent := quotient.leadingPlace - (precision - 1)
      match (neighbours quotient exponent).find? (readsBack ordinal) with
      | some decimal => some decimal
      | none => shortestFrom ordinal quotient count (precision + 1)

/-- How many of the last decimal place of the least magnitude make it up. -/
@[irreducible] def placesPerUnit : Nat := Nat.pow 5 1074

/-- The exact decimal value of a magnitude. -/
def Magnitude.exactDecimal (magnitude : Magnitude) : Decimal :=
  ⟨magnitude.significand * Nat.pow 2 magnitude.scale * placesPerUnit, -1074⟩

/-- The most digits that a shortest decimal form needs. -/
def maximalPrecision : Nat := 17

/-- The decimal form of a magnitude: the fewest digits that read back. -/
def shortestDecimal (ordinal : Nat) : Decimal :=
  if ordinal = 0 then ⟨0, 0⟩
  else
    let magnitude := Magnitude.ofOrdinal ordinal
    ((shortestFrom ordinal magnitude.toQuotient maximalPrecision 1).getD
      magnitude.exactDecimal).normalized

end TwinSchema.Number
