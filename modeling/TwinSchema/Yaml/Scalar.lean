import TwinSchema.Number.Arithmetic
import TwinSchema.Number.Numeral
import TwinSchema.Text.LowerCase
import TwinSchema.Yaml.Kind

/-!
# Scalars

The value of a text under the kind of its node. The kind alone does not ensure
that there is one, since a tag can be put on any text.
-/

namespace TwinSchema.Yaml

/-- A value of a file. Nothing more is kept of moments and of collections, since
no setting takes them. -/
inductive Value where
  | plain (content : Json.Scalar)
  | octets (octets : List UInt8)
  | moment
  | collection
  deriving DecidableEq, Repr

/-- The truth value that a text names, in any case of its letters. -/
def readTruth (text : List Char) : Except Flaw Bool :=
  let word := Text.lowerCased text
  if ["yes", "true", "on"].contains (String.ofList word) then .ok true
  else if ["no", "false", "off"].contains (String.ofList word) then .ok false
  else .error (.noTruth word)

def readWhole (base : Nat) (text : List Char) : Except Flaw Int :=
  match Number.readInteger base text with
  | .ok value => .ok value
  | .error .malformed => .error (.noInteger base text)
  | .error (.tooLong digits) => .error (.longInteger digits)

/-- A number in sixtieths, from the largest part on. -/
def joinSixtieths (parts : List Int) : Int :=
  parts.foldl (fun value part => 60 * value + part) 0

/-- A whole number without its sign: binary after `0b`, hexadecimal after `0x`,
octal after another zero, and otherwise decimal, perhaps in sixtieths. -/
def readSize (text : List Char) : Except Flaw Int :=
  match text with
  | [] => .error .emptyNumber
  | ['0'] => .ok 0
  | '0' :: 'b' :: digits => readWhole 2 digits
  | '0' :: 'x' :: digits => readWhole 16 digits
  | '0' :: _ => readWhole 8 text
  | _ =>
      if text.contains ':' then
        ((splitColons text).mapM (readWhole 10)).map joinSixtieths
      else readWhole 10 text

def withoutUnderscores (text : List Char) : List Char :=
  text.filter fun char => char != '_'

/-- The whole number that a text denotes, with or without a sign. -/
def readIntegerText (text : List Char) : Except Flaw Int :=
  let (negative, size) := Json.splitSign (withoutUnderscores text)
  (readSize size).map fun value => if negative then -value else value

def readFloatPart (text : List Char) : Except Flaw Number.Binary64 :=
  match Number.readFloat? text with
  | some value => .ok value
  | none => .error (.noFloat text)

/-- The sum of parts in sixtieths, from the smallest one on: each part counts a
power of sixty, which must be within the range of the numbers. -/
def sumSixtieths (unit : Nat) (sum : Number.Binary64) :
    List Number.Binary64 → Except Flaw Number.Binary64
  | [] => .ok sum
  | part :: parts =>
      match Number.Binary64.nearestMagnitude? unit with
      | none => .error .hugeUnit
      | some factor =>
          sumSixtieths (60 * unit) (sum.add (part.scale factor)) parts

/-- A floating-point number without its sign, perhaps in sixtieths. -/
def readFloatSize (text : List Char) : Except Flaw Number.Binary64 := do
  if text == ".inf".toList then return .infinite false
  else if text == ".nan".toList then return .nan
  else if text.contains ':' then
    let parts ← (splitColons text).mapM readFloatPart
    sumSixtieths 1 (.ofOrdinal false 0) parts.reverse
  else readFloatPart text

/-- The floating-point number that a text denotes, with or without a sign. -/
def readFloatText (text : List Char) : Except Flaw Number.Binary64 :=
  match Text.lowerCased (withoutUnderscores text) with
  | [] => .error .emptyNumber
  | char :: rest =>
      let (negative, size) := Json.splitSign (char :: rest)
      (readFloatSize size).map fun value =>
        if negative then value.negate else value

/-- The value of a character that stands for six bits. -/
def sextet? (char : Char) : Option Nat :=
  let code := char.toNat
  if 'A' ≤ char ∧ char ≤ 'Z' then some (code - 'A'.toNat)
  else if 'a' ≤ char ∧ char ≤ 'z' then some (code - 'a'.toNat + 26)
  else if '0' ≤ char ∧ char ≤ '9' then some (code - '0'.toNat + 52)
  else if char = '+' then some 62
  else if char = '/' then some 63
  else none

/-- The octets that characters of six bits make, four of them three octets:
`filled` tells how many characters of a group have come and `bits` what is left
of them, `pads` how many equal signs have just come. An equal sign counts from
the third place of a group on, and the group that is filled up with them is the
last. All other characters say nothing. -/
def readOctets? (filled bits pads : Nat) : List Char → Option (List UInt8)
  | [] => if filled = 0 then some [] else none
  | char :: rest =>
      if char = '=' then
        if filled < 2 then readOctets? filled bits pads rest
        else if 3 ≤ filled + pads then some []
        else readOctets? filled bits (pads + 1) rest
      else
        match sextet? char with
        | none => readOctets? filled bits pads rest
        | some value =>
            let joined := 64 * bits + value
            match filled with
            | 0 => readOctets? 1 value 0 rest
            | 1 =>
                (readOctets? 2 (joined % 16) 0 rest).map fun octets =>
                  UInt8.ofNat (joined / 16) :: octets
            | 2 =>
                (readOctets? 3 (joined % 4) 0 rest).map fun octets =>
                  UInt8.ofNat (joined / 4) :: octets
            | _ =>
                (readOctets? 0 0 0 rest).map fun octets =>
                  UInt8.ofNat joined :: octets

/-- The octets that an ASCII text stands for. -/
def readOctets (text : List Char) : Except Flaw (List UInt8) :=
  if text.all fun char => char.toNat < 0x80 then
    match readOctets? 0 0 0 text with
    | some octets => .ok octets
    | none => .error .malformed
  else .error .malformed

def checkMoment (text : List Char) : Except Flaw Unit :=
  match readMoment? (dropFinalBreak text) with
  | none => .error .noMoment
  | some moment =>
      match moment.flaw? with
      | none => .ok ()
      | some flaw => .error (.moment flaw)

/-- The value of a text under a kind. A mark is a value only where it is a key,
and a text is no collection. -/
def Kind.read (kind : Kind) (text : List Char) : Except Flaw Value :=
  match kind with
  | .null => .ok (.plain .null)
  | .truth => (readTruth text).map fun value => .plain (.bool value)
  | .integer => (readIntegerText text).map fun value => .plain (.integer value)
  | .float => (readFloatText text).map fun value => .plain (.float value)
  | .octets => (readOctets text).map .octets
  | .moment => (checkMoment text).map fun _ => .moment
  | .text => .ok (.plain (.text (String.ofList text)))
  | _ => .error .malformed

end TwinSchema.Yaml
