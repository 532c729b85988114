import TwinSchema.Number.Shortest

/-!
# Written numbers

How numbers are written out: integers by their digits, floating-point numbers by
their shortest decimal form, positionally when the leading digit is neither far
before nor far after the point.
-/

namespace TwinSchema.Number

/-- The conventions by which a floating-point number is written. -/
structure Convention where
  /-- The names of positive infinity, negative infinity and NaN. -/
  infinity : String
  negativeInfinity : String
  notANumber : String
  /-- The places of the leading digit, both included, that are written without
  an exponent. -/
  lowestPlace : Int
  highestPlace : Int
  /-- The least number of digits of a written exponent. -/
  exponentWidth : Nat

/-- Numbers inside messages and values. -/
def plainConvention : Convention :=
  ⟨"inf", "-inf", "nan", -4, 15, 2⟩

/-- Numbers inside documents and source text, which spell infinity out. -/
def documentConvention : Convention :=
  ⟨"Infinity", "-Infinity", "NaN", -4, 15, 2⟩

/-- The digits of an integer after its sign. -/
def writeInteger (number : Int) : List Char :=
  if number < 0 then '-' :: Nat.toDigits 10 number.natAbs
  else Nat.toDigits 10 number.natAbs

/-- Zeros in front up to a width. -/
def padLeft (width : Nat) (digits : List Char) : List Char :=
  List.replicate (width - digits.length) '0' ++ digits

/-- Digits around a point, which always has a digit on both sides. -/
def writePositional (digits : List Char) (place : Int) : List Char :=
  if place < 0 then
    '0' :: '.' :: List.replicate (-place - 1).toNat '0' ++ digits
  else
    let whole := place.toNat + 1
    let fraction := digits.drop whole
    digits.take whole ++ List.replicate (whole - digits.length) '0' ++
      '.' :: (if fraction.isEmpty then ['0'] else fraction)

/-- One digit, the others after a point, and the exponent with its sign. -/
def writeScientific (convention : Convention) (digits : List Char)
    (place : Int) : List Char :=
  let mantissa :=
    match digits with
    | [] => []
    | [digit] => [digit]
    | digit :: others => digit :: '.' :: others
  let sign := if place < 0 then '-' else '+'
  mantissa ++ 'e' :: sign ::
    padLeft convention.exponentWidth (Nat.toDigits 10 place.natAbs)

/-- A decimal number in the given convention. -/
def writeDecimal (convention : Convention) (decimal : Decimal) : List Char :=
  let digits := Nat.toDigits 10 decimal.digits
  let place := decimal.leadingPlace
  if convention.lowestPlace ≤ place && place ≤ convention.highestPlace then
    writePositional digits place
  else writeScientific convention digits place

/-- A floating-point number in the given convention. -/
def writeFloat (convention : Convention) : Binary64 → List Char
  | .nan => convention.notANumber.toList
  | .infinite false => convention.infinity.toList
  | .infinite true => convention.negativeInfinity.toList
  | .finite negative ordinal =>
      let text := writeDecimal convention (shortestDecimal ordinal)
      if negative then '-' :: text else text

end TwinSchema.Number
