import TwinSchema.Json.Reader
import TwinSchema.Text.Word

/-!
# Spellings of relaxed documents

The ways in which a relaxed document may spell a value. A text stands between
double quotes or apostrophes, a key may go without quotes, a comma may follow
the last item, and blanks and comments may stand between any two tokens. A
spelling is a tree; it has a text, and it has the value that the text means.
-/

namespace TwinSchema.Relaxed

open Json

/-- A part of a gap between two tokens: a blank, a block comment, or a line
comment with the character that ends its line. -/
inductive Filler where
  | blank (char : Char) (separates : isSeparator char = true)
  | block (body : List Char) (within : Text.occursIn ['*', '/'] body = false)
  | line (body : List Char) (ending : Char)
      (within : ∀ char ∈ body, char ≠ '\r' ∧ char ≠ '\n')
      (ends : ending = '\r' ∨ ending = '\n')

/-- What may stand between two tokens. -/
abbrev Gap := List Filler

/-- The characters of a part of a gap. -/
def Filler.text : Filler → List Char
  | .blank char _ => [char]
  | .block body _ => '/' :: '*' :: body ++ ['*', '/']
  | .line body ending _ _ => '/' :: '/' :: body ++ [ending]

/-- The blanks that a part of a gap leaves when comments are removed. -/
def Filler.blanks : Filler → List Char
  | .blank char _ => [char]
  | .block body _ => body.filter fun char => char == '\n'
  | .line _ ending _ _ => [ending]

/-- A character of a quoted text as it may be spelled: as it is, by a letter
after a backslash, as an apostrophe after a backslash, or by one or two groups
of four hexadecimal digits. -/
inductive Letter where
  | plain (char : Char)
  | short (letter : Char)
  | apostrophe
  | unit (first second third fourth : Char)
  | pair (first second third fourth : Char) (fifth sixth seventh eighth : Char)
  deriving DecidableEq

namespace Letter

def text : Letter → List Char
  | .plain char => [char]
  | .short letter => ['\\', letter]
  | .apostrophe => ['\\', '\'']
  | .unit first second third fourth => ['\\', 'u', first, second, third, fourth]
  | .pair first second third fourth fifth sixth seventh eighth =>
      ['\\', 'u', first, second, third, fourth,
        '\\', 'u', fifth, sixth, seventh, eighth]

/-- The character meant. -/
def char : Letter → Char
  | .plain char => char
  | .short letter => (shortEscape? letter).getD letter
  | .apostrophe => '\''
  | .unit first second third fourth =>
      Char.ofNat ((codeUnit? first second third fourth).getD 0)
  | .pair first second third fourth fifth sixth seventh eighth =>
      Char.ofNat (0x10000 +
        ((codeUnit? first second third fourth).getD 0 - 0xD800) * 0x400 +
        ((codeUnit? fifth sixth seventh eighth).getD 0 - 0xDC00))

/-- Whether a character may be so spelled between quotes of a kind. Control
characters are never spelled as they are, nor is the quote itself; an apostrophe
after a backslash needs apostrophes around the text. -/
def Allowed (quote : Char) : Letter → Prop
  | .plain char => 0x20 ≤ char.toNat ∧ char ≠ '\\' ∧ char ≠ quote
  | .short letter => (shortEscape? letter).isSome
  | .apostrophe => quote = '\''
  | .unit first second third fourth =>
      ∃ unit, codeUnit? first second third fourth = some unit ∧
        isHighSurrogate unit = false ∧ isLowSurrogate unit = false
  | .pair first second third fourth fifth sixth seventh eighth =>
      ∃ high low, codeUnit? first second third fourth = some high ∧
        codeUnit? fifth sixth seventh eighth = some low ∧
        isHighSurrogate high = true ∧ isLowSurrogate low = true

end Letter

/-- A quoted text. -/
structure Literal where
  quote : Char
  letters : List Letter
  quoted : quote = '"' ∨ quote = '\''
  allowed : ∀ letter ∈ letters, letter.Allowed quote

namespace Literal

def text (literal : Literal) : List Char :=
  literal.quote :: literal.letters.flatMap Letter.text ++ [literal.quote]

/-- The text meant. -/
def value (literal : Literal) : String :=
  String.ofList (literal.letters.map Letter.char)

/-- Letters between double quotes. -/
def ofLetters (letters : List Letter)
    (allowed : ∀ letter ∈ letters, letter.Allowed '"') : Literal :=
  ⟨'"', letters, .inl rfl, allowed⟩

@[simp] theorem quote_ofLetters (letters : List Letter)
    (allowed : ∀ letter ∈ letters, letter.Allowed '"') :
    (ofLetters letters allowed).quote = '"' :=
  rfl

@[simp] theorem letters_ofLetters (letters : List Letter)
    (allowed : ∀ letter ∈ letters, letter.Allowed '"') :
    (ofLetters letters allowed).letters = letters :=
  rfl

end Literal

/-- The exponent of a number. -/
structure Power where
  mark : Char
  sign : Option Char
  digits : List Char
  marked : mark = 'e' ∨ mark = 'E'
  signed : ∀ char ∈ sign, char = '+' ∨ char = '-'
  nonempty : digits ≠ []
  decimal : ∀ char ∈ digits, isDigit char = true

namespace Power

def text (power : Power) : List Char :=
  power.mark :: power.sign.toList ++ power.digits

/-- The exponent meant. -/
def value (power : Power) : Int :=
  let size : Int := digitsValue power.digits
  if power.sign = some '-' then -size else size

end Power

/-- A number: digits without a needless zero in front, perhaps a fraction, and
perhaps an exponent. Without both it is an integer, which has a limited number of
digits. -/
structure Numeral where
  negative : Bool
  whole : List Char
  fraction : List Char
  power : Option Power
  nonempty : whole ≠ []
  canonical : whole.head? = some '0' → whole = ['0']
  wholeDecimal : ∀ char ∈ whole, isDigit char = true
  fractionDecimal : ∀ char ∈ fraction, isDigit char = true
  limited : fraction = [] → power = none → whole.length ≤ integerDigitLimit

namespace Numeral

def fractionText (numeral : Numeral) : List Char :=
  if numeral.fraction.isEmpty then [] else '.' :: numeral.fraction

/-- The exponent, where there is one. -/
def powerText (numeral : Numeral) : List Char :=
  match numeral.power with
  | none => []
  | some power => power.text

/-- The number without its sign. -/
def unsigned (numeral : Numeral) : List Char :=
  numeral.whole ++ (numeral.fractionText ++ numeral.powerText)

def text (numeral : Numeral) : List Char :=
  if numeral.negative then '-' :: numeral.unsigned else numeral.unsigned

/-- The number meant. -/
def value (numeral : Numeral) : Scalar :=
  if numeral.fraction.isEmpty && numeral.power.isNone then
    let size : Int := digitsValue numeral.whole
    .integer (if numeral.negative then -size else size)
  else
    .float (.ofDecimal numeral.negative
      (digitsValue (numeral.whole ++ numeral.fraction))
      ((numeral.power.map Power.value).getD 0 - numeral.fraction.length))

end Numeral

/-- A value without parts and without quotes. -/
inductive Word where
  | null
  | true
  | false
  | nan
  | infinity
  | negativeInfinity
  | number (numeral : Numeral)

namespace Word

def text : Word → List Char
  | .null => "null".toList
  | .true => "true".toList
  | .false => "false".toList
  | .nan => "NaN".toList
  | .infinity => "Infinity".toList
  | .negativeInfinity => "-Infinity".toList
  | .number numeral => numeral.text

theorem text_number (numeral : Numeral) : text (.number numeral) = numeral.text :=
  rfl

def value : Word → Scalar
  | .null => .null
  | .true => .bool Bool.true
  | .false => .bool Bool.false
  | .nan => .float .nan
  | .infinity => .float (.infinite Bool.false)
  | .negativeInfinity => .float (.infinite Bool.true)
  | .number numeral => numeral.value

theorem value_number (numeral : Numeral) :
    value (.number numeral) = numeral.value := rfl

end Word

/-- The name of a field: a quoted text, or characters that need no quotes. -/
inductive Key where
  | bare (name : List Char) (nonempty : name ≠ [])
      (allowed : ∀ char ∈ name, Text.isKeyChar char = true)
  | quoted (literal : Literal)

def Key.value : Key → String
  | .bare name _ _ => String.ofList name
  | .quoted literal => literal.value

mutual

/-- A value as a relaxed document may spell it. A comma after the last part is
left out where there is no part; `last` stands before the closing bracket. -/
inductive Spelling where
  | word (word : Word)
  | literal (literal : Literal)
  | list (items : Items) (trailing : Bool) (last : Gap)
  | record (fields : Fields) (trailing : Bool) (last : Gap)

/-- Items with the gaps around them. -/
inductive Items where
  | nil
  | cons (before : Gap) (item : Spelling) (after : Gap) (rest : Items)

/-- Fields with the gaps around their names and their values. -/
inductive Fields where
  | nil
  | cons (before : Gap) (key : Key) (afterKey beforeItem : Gap)
      (item : Spelling) (after : Gap) (rest : Fields)

end

mutual

def Spelling.value : Spelling → Value
  | .word word => .scalar word.value
  | .literal literal => .text literal.value
  | .list items _ _ => .list items.values
  | .record fields _ _ => .record (fields.settle [])

def Items.values : Items → List Value
  | .nil => []
  | .cons _ item _ rest => item.value :: rest.values

/-- The fields of a record, where a name that comes again keeps its first place
and takes its last value. -/
def Fields.settle (before : List (String × Value)) :
    Fields → List (String × Value)
  | .nil => before
  | .cons _ key _ _ item _ rest =>
      rest.settle (setField key.value item.value before)

end

end TwinSchema.Relaxed
