import TwinSchema.Json.Value
import TwinSchema.Text.Blank

/-!
# Tokens of strict JSON

The lexical level of JSON: punctuation, texts, numbers and named values,
separated by blanks. Not-a-number and the infinities are admitted as names. A
text that cannot be read is a token as well, since it is a mistake only where a
text is due.

Texts are sequences of characters. An escape may name half a surrogate pair,
which is no character; where the other half does not follow, it is read as the
replacement character, so names that differ in such halves alone are one name.
-/

namespace TwinSchema.Json

/-- What can be wrong with JSON text. -/
inductive Reason where
  | byteOrderMark
  | valueExpected
  | nameExpected
  | colonExpected
  | commaExpected
  | trailingData
  | unclosedText
  | controlCharacter
  | unknownEscape
  | malformedCodePoint
  deriving DecidableEq, Repr

/-- The wording of a mistake. -/
def Reason.message : Reason → String
  | .byteOrderMark => "Unexpected UTF-8 BOM (decode using utf-8-sig)"
  | .valueExpected => "Expecting value"
  | .nameExpected => "Expecting property name enclosed in double quotes"
  | .colonExpected => "Expecting ':' delimiter"
  | .commaExpected => "Expecting ',' delimiter"
  | .trailingData => "Extra data"
  | .unclosedText => "Unterminated string starting at"
  | .controlCharacter => "Invalid control character at"
  | .unknownEscape => "Invalid \\escape"
  | .malformedCodePoint => "Invalid \\uXXXX escape"

/-- A mistake and the text from the place of the mistake on. -/
structure Mistake where
  reason : Reason
  remaining : List Char
  deriving DecidableEq, Repr

/-- The tokens of JSON. -/
inductive Token where
  | openRecord
  | closeRecord
  | openList
  | closeList
  | comma
  | colon
  | scalar (value : Scalar)
  | text (value : String)
  | longInteger (digits : Nat)
  | brokenText (mistake : Mistake)
  | unknown
  deriving DecidableEq, Repr

/-- A token and the text that begins with it. -/
structure Lexeme where
  token : Token
  remaining : List Char
  deriving DecidableEq, Repr

/-- Blanks between the tokens of JSON. -/
def isSeparator (char : Char) : Bool :=
  char == ' ' || char == '\t' || char == '\n' || char == '\r'

theorem isSeparator_iff {char : Char} :
    isSeparator char = true ↔ char = ' ' ∨ char = '\t' ∨ char = '\n' ∨ char = '\r' := by
  simp [isSeparator, or_assoc]

/-- The value of a hexadecimal digit. -/
def hexDigit? (char : Char) : Option Nat :=
  if '0' ≤ char ∧ char ≤ '9' then some (char.toNat - '0'.toNat)
  else if 'a' ≤ char ∧ char ≤ 'f' then some (char.toNat - 'a'.toNat + 10)
  else if 'A' ≤ char ∧ char ≤ 'F' then some (char.toNat - 'A'.toNat + 10)
  else none

/-- The value of four hexadecimal digits. -/
def codeUnit? (first second third fourth : Char) : Option Nat := do
  let first ← hexDigit? first
  let second ← hexDigit? second
  let third ← hexDigit? third
  let fourth ← hexDigit? fourth
  return ((first * 16 + second) * 16 + third) * 16 + fourth

/-- The character that a letter after a backslash stands for. -/
def shortEscape? : Char → Option Char
  | '"' => some '"'
  | '\\' => some '\\'
  | '/' => some '/'
  | 'b' => some '\x08'
  | 'f' => some '\x0C'
  | 'n' => some '\n'
  | 'r' => some '\r'
  | 't' => some '\t'
  | _ => none

/-- Puts one more unit in front of what was read. -/
def consUnit (unit : Nat) :
    Except Mistake (List Nat × List Char) → Except Mistake (List Nat × List Char)
  | .ok (units, rest) => .ok (unit :: units, rest)
  | .error mistake => .error mistake

/-- Reads a text after its opening quote, where `whole` is the text from that
quote on: its units up to the closing quote, and what follows. An escape by four
hexadecimal digits gives the unit it names and must not end the text. -/
def readUnits (whole : List Char) :
    List Char → Except Mistake (List Nat × List Char)
  | [] => .error ⟨.unclosedText, whole⟩
  | char :: rest =>
      if char = '"' then .ok ([], rest)
      else if char = '\\' then
        match rest with
        | [] => .error ⟨.unclosedText, whole⟩
        | 'u' :: digits =>
            match digits with
            | first :: second :: third :: fourth :: more =>
                match codeUnit? first second third fourth with
                | some unit =>
                    if more.isEmpty then .error ⟨.malformedCodePoint, rest⟩
                    else consUnit unit (readUnits whole more)
                | none => .error ⟨.malformedCodePoint, rest⟩
            | _ => .error ⟨.malformedCodePoint, rest⟩
        | letter :: more =>
            match shortEscape? letter with
            | some meant => consUnit meant.toNat (readUnits whole more)
            | none => .error ⟨.unknownEscape, char :: rest⟩
      else if char.toNat < 0x20 then
        .error ⟨.controlCharacter, char :: rest⟩
      else consUnit char.toNat (readUnits whole rest)

/-- Whether a unit is the first half of a surrogate pair. -/
def isHighSurrogate (unit : Nat) : Bool := 0xD800 ≤ unit && unit < 0xDC00

/-- Whether a unit is the second half of a surrogate pair. -/
def isLowSurrogate (unit : Nat) : Bool := 0xDC00 ≤ unit && unit < 0xE000

/-- The character of a unit. Half a surrogate pair has none of its own. -/
def unitChar (unit : Nat) : Char :=
  if isHighSurrogate unit || isLowSurrogate unit then '\uFFFD'
  else Char.ofNat unit

/-- Units as characters: the two halves of a surrogate pair make one. -/
def joinUnits : List Nat → List Char
  | [] => []
  | [unit] => [unitChar unit]
  | high :: low :: rest =>
      if isHighSurrogate high && isLowSurrogate low then
        Char.ofNat (0x10000 + (high - 0xD800) * 0x400 + (low - 0xDC00)) ::
          joinUnits rest
      else unitChar high :: joinUnits (low :: rest)

def isDigit (char : Char) : Bool := '0' ≤ char && char ≤ '9'

/-- The number that decimal digits denote. -/
def digitsValue (digits : List Char) : Nat :=
  digits.foldl (fun value digit => 10 * value + (digit.toNat - '0'.toNat)) 0

/-- The digits before the point: a lone zero, or digits without a leading
zero. -/
def wholePart? : List Char → Option (List Char × List Char)
  | [] => none
  | char :: rest =>
      if char = '0' then some (['0'], rest)
      else if isDigit char then
        some (char :: rest.takeWhile isDigit, rest.dropWhile isDigit)
      else none

/-- The digits after a point, if the text goes on with a point and a digit. -/
def fractionPart : List Char → List Char × List Char
  | '.' :: rest =>
      let digits := rest.takeWhile isDigit
      if digits.isEmpty then ([], '.' :: rest)
      else (digits, rest.dropWhile isDigit)
  | text => ([], text)

/-- A sign in front of digits: whether it is a minus, and what follows it. -/
def splitSign : List Char → Bool × List Char
  | '-' :: rest => (true, rest)
  | '+' :: rest => (false, rest)
  | text => (false, text)

/-- The exponent, if the text goes on with one. -/
def exponentPart (text : List Char) : Option Int × List Char :=
  match text with
  | [] => (none, text)
  | mark :: rest =>
      if mark = 'e' ∨ mark = 'E' then
        let (negative, unsigned) := splitSign rest
        let digits := unsigned.takeWhile isDigit
        if digits.isEmpty then (none, text)
        else
          let size : Int := digitsValue digits
          (some (if negative then -size else size), unsigned.dropWhile isDigit)
      else (none, text)

/-- The most digits that an integer may have. -/
def integerDigitLimit : Nat := 4300

/-- The token of a number whose sign has been read. Digits alone make an
integer; a fraction or an exponent makes a floating-point number. -/
def numberToken? (negative : Bool) (text : List Char) :
    Option (Token × List Char) :=
  match wholePart? text with
  | none => none
  | some (whole, afterWhole) =>
      let (fraction, afterFraction) := fractionPart afterWhole
      let (exponent, rest) := exponentPart afterFraction
      if fraction.isEmpty && exponent.isNone then
        if integerDigitLimit < whole.length then
          some (.longInteger whole.length, rest)
        else
          let size : Int := digitsValue whole
          some (.scalar (.integer (if negative then -size else size)), rest)
      else
        some (.scalar (.float (.ofDecimal negative
          (digitsValue (whole ++ fraction))
          (exponent.getD 0 - fraction.length))), rest)

/-- A named value whose first letter has been read. -/
def nameToken (name : String) (scalar : Scalar) (rest : List Char) :
    Token × List Char :=
  match Text.dropWord? name.toList rest with
  | some after => (.scalar scalar, after)
  | none => (.unknown, [])

/-- The token that begins with a given character, and what follows it. Nothing
is read beyond a token that is no part of JSON. -/
def nextToken (char : Char) (rest : List Char) : Token × List Char :=
  match char with
  | '{' => (.openRecord, rest)
  | '}' => (.closeRecord, rest)
  | '[' => (.openList, rest)
  | ']' => (.closeList, rest)
  | ',' => (.comma, rest)
  | ':' => (.colon, rest)
  | '"' =>
      match readUnits (char :: rest) rest with
      | .ok (units, after) => (.text (String.ofList (joinUnits units)), after)
      | .error mistake => (.brokenText mistake, [])
  | 'n' => nameToken "ull" .null rest
  | 't' => nameToken "rue" (.bool true) rest
  | 'f' => nameToken "alse" (.bool false) rest
  | 'N' => nameToken "aN" (.float .nan) rest
  | 'I' => nameToken "nfinity" (.float (.infinite false)) rest
  | '-' =>
      match Text.dropWord? "Infinity".toList rest with
      | some after => (.scalar (.float (.infinite true)), after)
      | none => (numberToken? true rest).getD (.unknown, [])
  | _ => (numberToken? false (char :: rest)).getD (.unknown, [])

theorem length_consUnit {unit limit : Nat} {units : List Nat}
    {rest : List Char} {result : Except Mistake (List Nat × List Char)}
    (bound : ∀ {units rest}, result = .ok (units, rest) → rest.length ≤ limit)
    (read : consUnit unit result = .ok (units, rest)) :
    rest.length ≤ limit := by
  cases result with
  | error mistake => simp [consUnit] at read
  | ok pair =>
      obtain ⟨others, after⟩ := pair
      simp only [consUnit, Except.ok.injEq, Prod.mk.injEq] at read
      exact read.2 ▸ bound rfl

theorem length_readUnits (whole text : List Char) :
    ∀ {units : List Nat} {rest : List Char},
      readUnits whole text = .ok (units, rest) → rest.length ≤ text.length := by
  fun_induction readUnits whole text with
  | case2 rest =>
      intro units after read
      simp only [Except.ok.injEq, Prod.mk.injEq] at read
      simp [← read.2]
  | case5 =>
      rename_i bound
      intro units after read
      have := length_consUnit bound read
      simp only [List.length_cons]
      omega
  | case8 =>
      rename_i bound
      intro units after read
      have := length_consUnit bound read
      simp only [List.length_cons]
      omega
  | case11 =>
      rename_i bound
      intro units after read
      have := length_consUnit bound read
      simp only [List.length_cons]
      omega
  | _ => simp

theorem length_wholePart? {text digits rest : List Char}
    (found : wholePart? text = some (digits, rest)) :
    rest.length < text.length := by
  cases text with
  | nil => simp [wholePart?] at found
  | cons char tail =>
      have bound := Text.length_dropWhile isDigit tail
      simp only [wholePart?] at found
      split at found
      · simp only [Option.some.injEq, Prod.mk.injEq] at found
        simp [← found.2]
      · split at found
        · simp only [Option.some.injEq, Prod.mk.injEq] at found
          simp only [← found.2, List.length_cons]
          omega
        · simp at found

theorem length_fractionPart (text : List Char) :
    (fractionPart text).2.length ≤ text.length := by
  fun_cases fractionPart text with
  | case1 => simp
  | case2 rest =>
      have := Text.length_dropWhile isDigit rest
      simp only [List.length_cons]
      omega
  | case3 => simp

theorem length_splitSign (text : List Char) :
    (splitSign text).2.length ≤ text.length := by
  fun_cases splitSign text <;> simp

theorem length_exponentPart (text : List Char) :
    (exponentPart text).2.length ≤ text.length := by
  fun_cases exponentPart text with
  | case1 => simp
  | case2 => simp
  | case3 mark rest marked negative unsigned sign =>
      have unsignedBound := length_splitSign rest
      have := Text.length_dropWhile isDigit unsigned
      simp only [sign] at unsignedBound
      simp only [List.length_cons]
      omega
  | case4 => simp

theorem length_numberToken? {negative : Bool} {text rest : List Char}
    {token : Token} (found : numberToken? negative text = some (token, rest)) :
    rest.length < text.length := by
  unfold numberToken? at found
  split at found
  · simp at found
  · rename_i whole afterWhole wholeFound
    have wholeBound := length_wholePart? wholeFound
    have fractionBound := length_fractionPart afterWhole
    have exponentBound := length_exponentPart (fractionPart afterWhole).2
    have same : rest = (exponentPart (fractionPart afterWhole).2).2 := by
      revert found
      simp only
      split
      · split <;> simp_all
      · simp_all
    rw [same]
    omega

theorem length_nameToken (name : String) (scalar : Scalar) (rest : List Char) :
    (nameToken name scalar rest).2.length ≤ rest.length := by
  unfold nameToken
  split
  · exact Text.length_dropWord? (by assumption)
  · simp

theorem length_getD_numberToken? (negative : Bool) (text : List Char)
    (nonempty : text ≠ []) :
    ((numberToken? negative text).getD (.unknown, [])).2.length <
      text.length := by
  cases found : numberToken? negative text with
  | none => simpa using List.length_pos_iff.mpr nonempty
  | some pair => exact @length_numberToken? _ _ _ pair.1 (by simpa using found)

/-- Every token takes at least its first character. -/
theorem length_nextToken (char : Char) (rest : List Char) :
    (nextToken char rest).2.length ≤ rest.length := by
  unfold nextToken
  split
  any_goals exact Nat.le_refl _
  any_goals exact length_nameToken _ _ _
  · split
    · exact length_readUnits _ _ (by assumption)
    · simp
  · split
    · exact Text.length_dropWord? (by assumption)
    · cases rest with
      | nil => simp [numberToken?, wholePart?]
      | cons first others =>
          exact Nat.le_of_lt (length_getD_numberToken? _ _ (by simp))
  · have := length_getD_numberToken? false (char :: rest) (by simp)
    simp only [List.length_cons] at this
    omega

/-- The tokens of a text, in order. -/
def lexemes : List Char → List Lexeme
  | [] => []
  | char :: rest =>
      if isSeparator char then lexemes rest
      else
        ⟨(nextToken char rest).1, char :: rest⟩ ::
          lexemes (nextToken char rest).2
termination_by text => text.length
decreasing_by
  · simp
  · have := length_nextToken char rest
    simp only [List.length_cons]
    omega

end TwinSchema.Json
