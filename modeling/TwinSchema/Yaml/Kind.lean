import TwinSchema.Yaml.Moment

/-!
# Kinds of nodes

What a node is, by its tag or else by its spelling: a word without quotes is
null, a truth value, a number, a moment or a text.
-/

namespace TwinSchema.Yaml

/-- The kinds of nodes. As a key, the one kind of mark merges other records into
a record, and the other stands for the record itself. -/
inductive Kind where
  | null
  | truth
  | integer
  | float
  | octets
  | moment
  | text
  | list
  | pairs
  | set
  | record
  | mergeMark
  | selfMark
  | unknown
  deriving DecidableEq, Repr

/-- What all known tags begin with. -/
def tagStart : List Char := "tag:yaml.org,2002:".toList

/-- The kind that a full tag stands for. -/
def Kind.ofTag (tag : List Char) : Kind :=
  match (Text.dropWord? tagStart tag).map String.ofList with
  | some "null" => .null
  | some "bool" => .truth
  | some "int" => .integer
  | some "float" => .float
  | some "binary" => .octets
  | some "timestamp" => .moment
  | some "str" => .text
  | some "seq" => .list
  | some "omap" | some "pairs" => .pairs
  | some "set" => .set
  | some "map" => .record
  | some "merge" => .mergeMark
  | some "value" => .selfMark
  | _ => .unknown

/-- Whether a character is a decimal digit or an underscore. -/
def isDigitOrUnderscore (char : Char) : Bool :=
  Json.isDigit char || char == '_'

/-- Digits of a base and underscores, at least one of them. -/
def isRun (base : Nat) (text : List Char) : Bool :=
  !text.isEmpty && text.all fun char =>
    char == '_' || (Json.hexDigit? char).any fun value => value < base

/-- Decimal digits and underscores, of which the first is a digit. -/
def isNumeral (text : List Char) : Bool :=
  text.head?.any Json.isDigit && text.all isDigitOrUnderscore

/-- The parts of a text between colons. -/
def splitColons : List Char → List (List Char)
  | [] => [[]]
  | char :: rest =>
      match char == ':', splitColons rest with
      | true, parts => [] :: parts
      | false, [] => [[char]]
      | false, part :: parts => (char :: part) :: parts

/-- A number from zero to fifty-nine, of one or two digits. -/
def isSixtieth : List Char → Bool
  | [unit] => Json.isDigit unit
  | [ten, unit] => '0' ≤ ten && ten ≤ '5' && Json.isDigit unit
  | _ => false

/-- Whether a word is an integer: binary after `0b`, hexadecimal after `0x`,
octal after another zero, and otherwise decimal, perhaps with sixtieths after
colons. -/
def isIntegerWord (word : List Char) : Bool :=
  match (Json.splitSign word).2 with
  | ['0'] => true
  | '0' :: 'b' :: digits => isRun 2 digits
  | '0' :: 'x' :: digits => isRun 16 digits
  | '0' :: digits => isRun 8 digits
  | size =>
      match splitColons size with
      | [] => false
      | whole :: parts => isNumeral whole && parts.all isSixtieth

/-- Whether a text is an exponent, which always has a sign, or empty. -/
def isExponent : List Char → Bool
  | [] => true
  | _ :: sign :: digits =>
      (sign == '+' || sign == '-') && !digits.isEmpty && digits.all Json.isDigit
  | _ => false

/-- Whether a word has a point. The part before it may be missing where there is
no sign, and may have sixtieths where there is no exponent. -/
def isPointed (signed : Bool) (size : List Char) : Bool :=
  let (mantissa, power) := size.span fun char => char != 'e' && char != 'E'
  let (whole, after) := mantissa.span fun char => char != '.'
  let decimals := after.drop 1
  !after.isEmpty && decimals.all isDigitOrUnderscore && isExponent power &&
    match splitColons whole with
    | [] => false
    | [[]] => !signed && decimals.head?.any Json.isDigit
    | [numeral] => isNumeral numeral
    | numeral :: parts =>
        power.isEmpty && isNumeral numeral && parts.all isSixtieth

def infinityWords : List String := [".inf", ".Inf", ".INF"]

/-- The words for what is not a number. -/
def nanWords : List String := [".nan", ".NaN", ".NAN"]

/-- Whether a word is a floating-point number. -/
def isFloatWord (word : List Char) : Bool :=
  let (_, size) := Json.splitSign word
  infinityWords.contains (String.ofList size) ||
    nanWords.contains (String.ofList word) ||
    isPointed (size.length < word.length) size

def nullWords : List String := ["", "~", "null", "Null", "NULL"]

/-- The words for truth values, in the three ways to write them. -/
def truthWords : List String :=
  ["yes", "Yes", "YES", "no", "No", "NO", "true", "True", "TRUE", "false",
    "False", "FALSE", "on", "On", "ON", "off", "Off", "OFF"]

/-- A text without a line break at its end. -/
def dropFinalBreak (text : List Char) : List Char :=
  if text.getLast? == some '\n' then text.dropLast else text

/-- The kind of a text that nothing but its spelling tells. A line break at the
end does not count, but is no null by itself. -/
def Kind.ofText (text : List Char) : Kind :=
  let content := if text == ['\n'] then text else dropFinalBreak text
  let word := String.ofList content
  if nullWords.contains word then .null
  else if word == "<<" then .mergeMark
  else if word == "=" then .selfMark
  else if truthWords.contains word then .truth
  else if isFloatWord content then .float
  else if isIntegerWord content then .integer
  else if isMomentWord content then .moment
  else .text

end TwinSchema.Yaml
