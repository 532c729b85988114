import TwinSchema.Json.Token
import TwinSchema.Validation.Issue

/-!
# Reading single values leniently

Settings and node records are read with some tolerance: a whole number may come
as text, as a float or as a truth value, and a truth value as one of the usual
words or as zero or one.
-/

namespace TwinSchema.Validation

open Json

def readText (place : List String) : Value → Checked String
  | .scalar (.text value) => .ok value
  | _ => .error [⟨place, .notText⟩]

/-- The words for a truth value, in any case of their ASCII letters. -/
def truthWord? (word : String) : Option Bool :=
  let word := String.ofList (word.toList.map Char.toUpper)
  if word ∈ ["1", "T", "Y", "YES", "ON", "TRUE"] then some true
  else if word ∈ ["0", "F", "N", "NO", "OFF", "FALSE"] then some false
  else none

/-- The numbers from `-2 ^ 63` to `2 ^ 63`, without the upper bound. -/
def isMachineInteger (value : Int) : Bool :=
  -0x8000000000000000 ≤ value && value < 0x8000000000000000

/-- A truth value from a number, which must be zero or one. -/
def numberTruth (place : List String) (value : Int) : Checked Bool :=
  if value = 1 then .ok true
  else if value = 0 then .ok false
  else .error [⟨place, .unreadableBoolean⟩]

/-- The integer equal to a floating-point number, if its size is below
`2 ^ 63`. -/
def machineInteger? (value : Number.Binary64) : Option Int :=
  value.toInteger?.filter fun integer => integer.natAbs < Nat.pow 2 63

/-- A truth value, or zero, or one, or a word for either. A number that is not
whole or too large is not even looked at. -/
def readBool (place : List String) : Value → Checked Bool
  | .scalar (.bool value) => .ok value
  | .scalar (.integer value) =>
      if isMachineInteger value then numberTruth place value
      else .error [⟨place, .notBoolean⟩]
  | .scalar (.float value) =>
      match machineInteger? value with
      | some integer => numberTruth place integer
      | none => .error [⟨place, .notBoolean⟩]
  | .scalar (.text value) =>
      match truthWord? value with
      | some truth => .ok truth
      | none => .error [⟨place, .unreadableBoolean⟩]
  | _ => .error [⟨place, .notBoolean⟩]

/-- The blanks that may stand around a number: those that are no control
characters of the last four kinds. -/
def isMargin (char : Char) : Bool :=
  Text.isBlank char && !(0x1C ≤ char.toNat && char.toNat ≤ 0x1F)

/-- A text without the blanks at its ends. -/
def dropMargins (text : List Char) : List Char :=
  ((text.dropWhile isMargin).reverse.dropWhile isMargin).reverse

/-- A number without a plus sign, which no minus sign may follow. -/
def dropPlus? : List Char → Option (List Char)
  | '+' :: '-' :: _ => none
  | '+' :: rest => some rest
  | text => some text

/-- The number after zeros, between which underscores may stand. One zero is
kept before a point and at the end; after another character than a digit, a
minus sign or a point there is no number. -/
def afterZeros? (previous : Char) : List Char → Option (List Char)
  | [] => some [previous]
  | char :: rest =>
      if char = '0' ∨ char = '_' then afterZeros? char rest
      else if char = '.' then some (previous :: char :: rest)
      else if isDigit char ∨ char = '-' then some (char :: rest)
      else none

/-- A number without zeros in front. It begins with a digit or a minus sign. -/
def dropZeros? : List Char → Option (List Char)
  | [] => none
  | char :: rest =>
      if char = '0' then afterZeros? char rest
      else if isDigit char ∨ char = '-' then some (char :: rest)
      else none

/-- A decimal point with nothing but zeros after it says nothing. -/
def dropZeroFraction (text : List Char) : List Char :=
  match text.span fun char => char != '.' with
  | (whole, '.' :: zeros) =>
      if !zeros.isEmpty && zeros.all fun char => char == '0' then whole else text
  | _ => text

/-- A number without the underscores in it, if all of them are single and none
is at an end. -/
def dropUnderscores (text : List Char) : List Char :=
  if text.head? == some '_' || text.getLast? == some '_' ||
      Text.occursIn ['_', '_'] text then text
  else text.filter fun char => char != '_'

/-- A number as it is read after all that says nothing has been removed. -/
def bareNumber? (text : List Char) : Option (List Char) := do
  let unsigned ← dropPlus? (dropMargins text)
  let number ← dropZeros? unsigned
  return dropUnderscores (dropZeroFraction number)

/-- The value of a bare number: zero, or digits of which the first is none, with
or without a minus sign. With the sign it has a limited length. -/
def bareValue (text : List Char) : Except Problem Int :=
  let (negative, size) :=
    match text with
    | '-' :: rest => (true, rest)
    | _ => (false, text)
  let digits := size.takeWhile isDigit
  let length := digits.length + if negative then 1 else 0
  if digits.isEmpty then .error .unreadableInteger
  else if digits.head? == some '0' then
    if size.length = 1 then .ok 0 else .error .unreadableInteger
  else if integerDigitLimit < length then .error .oversizedInteger
  else if digits.length < size.length then .error .unreadableInteger
  else
    let value : Int := digitsValue digits
    .ok (if negative then -value else value)

/-- A whole number written as text. -/
def integerInText (text : List Char) : Except Problem Int :=
  match bareNumber? text with
  | some number => bareValue number
  | none => .error .unreadableInteger

/-- A whole number from a floating-point one, which must be finite and below
`2 ^ 63` in size. -/
def integerInFloat (value : Number.Binary64) : Except Problem Int :=
  match value, value.toInteger? with
  | .finite _ _, some integer =>
      if integer.natAbs < Nat.pow 2 63 then .ok integer else .error .oversizedInteger
  | .finite _ _, none => .error .fractionalInteger
  | _, _ => .error .notFinite

/-- A whole number in any of its forms. -/
def readInteger (place : List String) : Value → Checked Int
  | .scalar (.integer value) => .ok value
  | .scalar (.bool value) => .ok (if value then 1 else 0)
  | .scalar (.float value) =>
      (integerInFloat value).mapError fun problem => [⟨place, problem⟩]
  | .scalar (.text value) =>
      (integerInText value.toList).mapError fun problem => [⟨place, problem⟩]
  | _ => .error [⟨place, .notInteger⟩]

end TwinSchema.Validation
