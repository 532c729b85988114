/-!
# Binary64 numbers

Floating-point numbers with 53 bits of precision. A finite one is a sign and an
ordinal: the place of its magnitude among all magnitudes, zero first. Magnitudes
below `2 ^ 53` units of `2 ^ -1074` are evenly spaced; above, the spacing
doubles after every `2 ^ 52` of them. So each number has one representation, and
neighbouring magnitudes have neighbouring ordinals.
-/

namespace TwinSchema.Number

/-- How many of the least magnitude make one. -/
@[irreducible] def unitsPerOne : Nat := Nat.pow 2 1074

/-- How many magnitudes share one spacing. -/
def binadeSize : Nat := Nat.pow 2 52

/-- How many finite magnitudes there are. -/
def magnitudeCount : Nat := 2047 * binadeSize

inductive Binary64 where
  | nan
  | infinite (negative : Bool)
  | finite (negative : Bool) (ordinal : Fin magnitudeCount)
  deriving DecidableEq, Repr

/-- The finite magnitude `significand * 2 ^ (scale - 1074)`. -/
structure Magnitude where
  significand : Nat
  scale : Nat
  deriving DecidableEq, Repr

def Magnitude.ofOrdinal (ordinal : Nat) : Magnitude :=
  if ordinal < 2 * binadeSize then ⟨ordinal, 0⟩
  else
    ⟨binadeSize + ordinal % binadeSize, ordinal / binadeSize - 1⟩

/-- A positive quotient of natural numbers. -/
structure Quotient where
  numerator : Nat
  denominator : Nat
  deriving DecidableEq, Repr

def Magnitude.toQuotient (magnitude : Magnitude) : Quotient :=
  ⟨magnitude.significand * Nat.pow 2 magnitude.scale, unitsPerOne⟩

/-- The nearest integer to a quotient; of two equally near ones the even. -/
def roundHalfEven (numerator denominator : Nat) : Nat :=
  let floor := numerator / denominator
  let twice := 2 * (numerator % denominator)
  if twice < denominator then floor
  else if denominator < twice then floor + 1
  else floor + floor % 2

/-- The least scale at which the quotient has no more than 53 bits before its
point: the spacing at which the quotient is rounded. -/
def roundingScale (quotient : Quotient) : Nat :=
  let units := quotient.numerator * unitsPerOne / quotient.denominator
  if units < 2 * binadeSize then 0 else units.log2 - 52

/-- The ordinal of the magnitude nearest to a quotient, as if the ordinals went
on without end. -/
def nearestOrdinal (quotient : Quotient) : Nat :=
  let scale := roundingScale quotient
  scale * binadeSize +
    roundHalfEven (quotient.numerator * unitsPerOne)
      (quotient.denominator * Nat.pow 2 scale)

namespace Binary64

/-- The number with a given sign and ordinal; past the finite magnitudes lies
infinity. -/
def ofOrdinal (negative : Bool) (ordinal : Nat) : Binary64 :=
  if inRange : ordinal < magnitudeCount then .finite negative ⟨ordinal, inRange⟩
  else .infinite negative

/-- The number nearest to a signed quotient. -/
def ofQuotient (negative : Bool) (quotient : Quotient) : Binary64 :=
  ofOrdinal negative (nearestOrdinal quotient)

/-- Decimal places beyond which every number is infinite, and before which every
number is zero. -/
def decimalReach : Int := 400

/-- The number nearest to `digits * 10 ^ exponent`. -/
def ofDecimal (negative : Bool) (digits : Nat) (exponent : Int) : Binary64 :=
  let places : Int := (Nat.toDigits 10 digits).length + exponent
  if digits = 0 || places < -decimalReach then ofOrdinal negative 0
  else if decimalReach < places then .infinite negative
  else ofQuotient negative
    ⟨digits * Nat.pow 10 exponent.toNat, Nat.pow 10 (-exponent).toNat⟩

/-- The integer equal to the number, if there is one. -/
def toInteger? : Binary64 → Option Int
  | .nan => none
  | .infinite _ => none
  | .finite negative ordinal =>
      let quotient := (Magnitude.ofOrdinal ordinal).toQuotient
      if quotient.numerator % quotient.denominator = 0 then
        let magnitude : Int := quotient.numerator / quotient.denominator
        some (if negative then -magnitude else magnitude)
      else none

/-- Numerical equality: no number equals a NaN, and the two zeros are equal. -/
def same : Binary64 → Binary64 → Bool
  | .infinite left, .infinite right => left == right
  | .finite leftSign left, .finite rightSign right =>
      left == right && (leftSign == rightSign || left.val == 0)
  | _, _ => false

end Binary64

end TwinSchema.Number
