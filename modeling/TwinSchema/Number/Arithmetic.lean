import TwinSchema.Number.Binary64

/-!
# Sums and products of binary64 numbers

The exact result of an operation, rounded to the nearest number.
-/

namespace TwinSchema.Number.Binary64

/-- The numerator of a finite number over the denominator that all of them
share. -/
def signedUnits (negative : Bool) (ordinal : Nat) : Int :=
  let units : Int := (Magnitude.ofOrdinal ordinal).toQuotient.numerator
  if negative then -units else units

/-- The number nearest to a signed quotient. Zero counts as positive. -/
def ofUnits (units : Int) (denominator : Nat) : Binary64 :=
  ofQuotient (decide (units < 0)) ⟨units.natAbs, denominator⟩

/-- The number of the opposite sign. -/
def negate : Binary64 → Binary64
  | .nan => .nan
  | .infinite negative => .infinite !negative
  | .finite negative ordinal => .finite (!negative) ordinal

/-- The sum of two numbers. Infinities of opposite signs have none. -/
def add : Binary64 → Binary64 → Binary64
  | .finite left first, .finite right second =>
      ofUnits (signedUnits left first + signedUnits right second) unitsPerOne
  | .infinite left, .infinite right =>
      if left == right then .infinite left else .nan
  | .infinite negative, .finite _ _ => .infinite negative
  | .finite _ _, .infinite negative => .infinite negative
  | .nan, _ => .nan
  | _, .nan => .nan

/-- The product of a number and a positive magnitude. -/
def scale (factor : Quotient) : Binary64 → Binary64
  | .finite negative ordinal =>
      let quotient := (Magnitude.ofOrdinal ordinal).toQuotient
      ofQuotient negative
        ⟨quotient.numerator * factor.numerator,
          quotient.denominator * factor.denominator⟩
  | other => other

/-- The magnitude nearest to a natural number, if there is one that is finite.
-/
def nearestMagnitude? (size : Nat) : Option Quotient :=
  let ordinal := nearestOrdinal ⟨size, 1⟩
  if ordinal < magnitudeCount then some (Magnitude.ofOrdinal ordinal).toQuotient
  else none

end TwinSchema.Number.Binary64
