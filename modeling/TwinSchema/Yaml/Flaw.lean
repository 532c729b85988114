import TwinSchema.Text.Quoted

/-!
# Flaws of a file

Why a file has no content: it is not well formed, or a scalar in it is not what
its tag says.
-/

namespace TwinSchema.Yaml

/-- What is wrong with a moment in time: a part of it that is out of range, or
an offset, in minutes, of a day or more. -/
inductive MomentFlaw where
  | year (value : Nat)
  | month
  | day
  | hour
  | minute
  | second
  | offset (minutes : Int)
  deriving DecidableEq, Repr

/-- What is wrong with a file: it is not well formed, a number names no
character, a text has no value of the kind that its tag or its spelling gives
it, or a record stands for itself. -/
inductive Flaw where
  | malformed
  | noCharacter
  | hugeCharacter
  | noInteger (base : Nat) (text : List Char)
  | longInteger (digits : Nat)
  | noFloat (text : List Char)
  | hugeUnit
  | emptyNumber
  | noTruth (word : List Char)
  | noMoment
  | momentOfRecord
  | moment (flaw : MomentFlaw)
  | endless
  deriving DecidableEq, Repr

/-- An offset in days and seconds, the latter at least zero. -/
def offsetText (minutes : Int) : String :=
  let seconds := 60 * minutes
  let days := seconds.fdiv 86400
  let others := seconds.fmod 86400
  let parts :=
    (if days = 0 then [] else [s!"days={days}"]) ++
      if others = 0 then [] else [s!"seconds={others}"]
  "datetime.timedelta(" ++ ", ".intercalate parts ++ ")"

/-- The wording for a moment that is none. -/
def MomentFlaw.message : MomentFlaw → String
  | .year value => s!"year {value} is out of range"
  | .month => "month must be in 1..12"
  | .day => "day is out of range for month"
  | .hour => "hour must be in 0..23"
  | .minute => "minute must be in 0..59"
  | .second => "second must be in 0..59"
  | .offset minutes =>
      "offset must be a timedelta strictly between -timedelta(hours=24) and " ++
        s!"timedelta(hours=24), not {offsetText minutes}."

/-- How much of a text is shown in a message. -/
def shownLength : Nat := 200

/-- A text in a message, cut off where it is too long. -/
def shortDisplay (text : List Char) : String :=
  String.ofList ((Text.display (String.ofList text)).toList.take shownLength)

def Flaw.message : Flaw → String
  | .malformed => "the file is not well formed"
  | .noCharacter => "chr() arg not in range(0x110000)"
  | .hugeCharacter => "the number of a character is too large"
  | .noInteger base text =>
      s!"invalid literal for int() with base {base}: {shortDisplay text}"
  | .longInteger digits => s!"an integer has {digits} digits"
  | .noFloat text =>
      "could not convert string to float: " ++
        Text.display (String.ofList text)
  | .hugeUnit => "int too large to convert to float"
  | .emptyNumber => "string index out of range"
  | .noTruth word => Text.display (String.ofList word)
  | .noMoment => "a text is no moment in time"
  | .momentOfRecord => "a record is no moment in time"
  | .moment flaw => flaw.message
  | .endless => "a record stands for itself"

end TwinSchema.Yaml
