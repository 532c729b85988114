import TwinSchema.Json.Token
import TwinSchema.Text.Digit

/-!
# Numerals

Numbers as people write them: with blanks around them, with a sign, in the
digits of any script, and with single underscores between the digits.
-/

namespace TwinSchema.Number

open Json (hexDigit? integerDigitLimit splitSign)

/-- Why a text is no whole number: it is not written like one, or it has too
many digits. -/
inductive Misread where
  | malformed
  | tooLong (digits : Nat)
  deriving DecidableEq, Repr

/-- The value of a digit of a base. -/
def digitIn? (base : Nat) (char : Char) : Option Nat :=
  (hexDigit? char).filter fun value => value < base

/-- The digits that a text begins with, and what follows them. No two
underscores stand together, and none at an end; `due` tells that a digit has to
come next. -/
def takeDigits? (base : Nat) :
    (due : Bool) → List Char → Option (List Nat × List Char)
  | due, [] => if due then none else some ([], [])
  | due, char :: rest =>
      if char = '_' then if due then none else takeDigits? base true rest
      else
        match digitIn? base char with
        | some digit =>
            (takeDigits? base false rest).map fun (digits, after) =>
              (digit :: digits, after)
        | none => if due then none else some ([], char :: rest)

/-- The number that digits of a base denote. -/
def valueIn (base : Nat) (digits : List Nat) : Nat :=
  digits.foldl (fun value digit => base * value + digit) 0

/-- A text without the mark of its base at the front: a zero and a letter, after
which an underscore may stand. -/
def dropBaseMark (base : Nat) : List Char → List Char
  | '0' :: letter :: rest =>
      let marked :=
        match base with
        | 2 => letter == 'b' || letter == 'B'
        | 8 => letter == 'o' || letter == 'O'
        | 16 => letter == 'x' || letter == 'X'
        | _ => false
      if marked then (Text.dropChar? '_' rest).getD rest
      else '0' :: letter :: rest
  | text => text

/-- Reads a whole number in a base. The number of decimal digits is limited. -/
def readInteger (base : Nat) (text : List Char) : Except Misread Int :=
  let (negative, unsigned) := splitSign (Text.plainNumber text)
  match takeDigits? base true (dropBaseMark base unsigned) with
  | none => .error .malformed
  | some (digits, rest) =>
      if base = 10 ∧ integerDigitLimit < digits.length then
        .error (.tooLong digits.length)
      else if !rest.isEmpty then .error .malformed
      else
        let size : Int := valueIn base digits
        .ok (if negative then -size else size)

/-- The exponent after a mantissa, which may be missing. -/
def exponent? : List Char → Option Int
  | [] => some 0
  | _ :: power =>
      let (negative, digits) := splitSign power
      if digits.isEmpty || !digits.all Json.isDigit then none
      else
        let size : Int := Json.digitsValue digits
        some (if negative then -size else size)

/-- A floating-point number without a sign. At least one digit stands before or
after its point, which may be missing. -/
def unsignedFloat? (negative : Bool) (text : List Char) : Option Binary64 := do
  let (mantissa, power) := text.span fun char => char != 'e' && char != 'E'
  let (whole, after) := mantissa.span fun char => char != '.'
  let decimals := after.drop 1
  let exponent ← exponent? power
  if (whole ++ decimals).isEmpty || !(whole ++ decimals).all Json.isDigit then
    none
  else
    return .ofDecimal negative (Json.digitsValue (whole ++ decimals))
      (exponent - decimals.length)

/-- Reads a floating-point number, which may be a name of infinity or of what is
not a number. -/
def readFloat? (text : List Char) : Option Binary64 :=
  let (negative, size) := splitSign (Text.plainNumber text)
  match String.ofList (size.map Char.toLower) with
  | "inf" | "infinity" => some (.infinite negative)
  | "nan" => some .nan
  | _ => unsignedFloat? negative size

end TwinSchema.Number
