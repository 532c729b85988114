import TwinSchema.Json.Token
import TwinSchema.Yaml.Glyph

/-!
# Moments in time

A day, perhaps with a time of day, which may have a fraction of a second and an
offset. Its spelling alone does not make it a moment: each part has its range.
-/

namespace TwinSchema.Yaml

/-- A time of day, and its offset in minutes if it has one. -/
structure Clock where
  hour : Nat
  minute : Nat
  second : Nat
  offset : Option Int
  deriving DecidableEq, Repr

/-- A day, perhaps with a time. -/
structure Moment where
  year : Nat
  month : Nat
  day : Nat
  clock : Option Clock
  deriving DecidableEq, Repr

/-- Reads as many digits as there are, which must be in a given range. -/
def readDigits? (least most : Nat) (text : List Char) :
    Option (Nat × List Char) :=
  let digits := text.takeWhile Json.isDigit
  if least ≤ digits.length && digits.length ≤ most then
    some (Json.digitsValue digits, text.drop digits.length)
  else none

/-- Removes what separates a day from a time. -/
def dropDivider? : List Char → Option (List Char)
  | 'T' :: rest => some rest
  | 't' :: rest => some rest
  | text =>
      if text.head?.any isSpace then some (text.dropWhile isSpace) else none

/-- Removes a fraction of a second, which may have no digits. -/
def dropFraction : List Char → List Char
  | '.' :: rest => rest.dropWhile Json.isDigit
  | text => text

/-- Minutes after hours, which may be missing. Nothing follows them. -/
def readMinutes? (text : List Char) : Option Nat :=
  match text with
  | [] => some 0
  | ':' :: rest =>
      match readDigits? 2 2 rest with
      | some (minutes, []) => some minutes
      | _ => none
  | _ => none

/-- An offset up to the end of a text, which may be missing: that of universal
time, or hours and perhaps minutes with a sign. -/
def readOffset? (text : List Char) : Option (Option Int) :=
  match text.dropWhile isSpace with
  | [] => if text.isEmpty then some none else none
  | ['Z'] => some (some 0)
  | sign :: rest => do
      let (hours, after) ← readDigits? 1 2 rest
      let size : Int := 60 * hours + (← readMinutes? after)
      if sign = '-' then return some (-size)
      else if sign = '+' then return some size
      else none

/-- A time up to the end of a text. -/
def readClock? (text : List Char) : Option Clock := do
  let (hour, afterHour) ← readDigits? 1 2 text
  let (minute, afterMinute) ←
    readDigits? 2 2 (← Text.dropChar? ':' afterHour)
  let (second, afterSecond) ←
    readDigits? 2 2 (← Text.dropChar? ':' afterMinute)
  let offset ← readOffset? (dropFraction afterSecond)
  return ⟨hour, minute, second, offset⟩

def readMoment? (text : List Char) : Option Moment := do
  let (year, afterYear) ← readDigits? 4 4 text
  let (month, afterMonth) ← readDigits? 1 2 (← Text.dropChar? '-' afterYear)
  let (day, afterDay) ← readDigits? 1 2 (← Text.dropChar? '-' afterMonth)
  if afterDay.isEmpty then return ⟨year, month, day, none⟩
  else return ⟨year, month, day, some (← readClock? (← dropDivider? afterDay))⟩

/-- The length of a day without a time where it is not told to be one: four, two
and two digits, and the dashes between them. -/
def dayLength : Nat := 10

/-- Whether a word is a moment without being told to be one. -/
def isMomentWord (word : List Char) : Bool :=
  match readMoment? word with
  | none => false
  | some moment => moment.clock.isSome || word.length == dayLength

def isLeapYear (year : Nat) : Bool :=
  year % 4 == 0 && (year % 100 != 0 || year % 400 == 0)

/-- How many days a month has. -/
def daysInMonth (year month : Nat) : Nat :=
  if month = 2 then if isLeapYear year then 29 else 28
  else if month ∈ [4, 6, 9, 11] then 30
  else 31

def dayMinutes : Nat := 1440

/-- What is wrong with the offset of a time. -/
def Clock.offsetFlaw? (clock : Clock) : Option MomentFlaw :=
  match clock.offset with
  | none => none
  | some minutes =>
      if dayMinutes ≤ minutes.natAbs then some (.offset minutes) else none

/-- What is wrong with a time. -/
def Clock.flaw? (clock : Clock) : Option MomentFlaw :=
  if 23 < clock.hour then some .hour
  else if 59 < clock.minute then some .minute
  else if 59 < clock.second then some .second
  else none

/-- What is wrong with a day. -/
def Moment.dayFlaw? (moment : Moment) : Option MomentFlaw :=
  if moment.year = 0 then some (.year moment.year)
  else if moment.month = 0 ∨ 12 < moment.month then some .month
  else if moment.day = 0 ∨ daysInMonth moment.year moment.month < moment.day
    then some .day
  else none

/-- What is wrong with a moment: its offset is looked at first, then its parts
from the year on. -/
def Moment.flaw? (moment : Moment) : Option MomentFlaw :=
  moment.clock.bind Clock.offsetFlaw? <|> moment.dayFlaw? <|>
    moment.clock.bind Clock.flaw?

end TwinSchema.Yaml
