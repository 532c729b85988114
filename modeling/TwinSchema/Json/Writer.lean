import TwinSchema.Json.Value
import TwinSchema.Number.Notation
import TwinSchema.Text.Blank
import TwinSchema.Text.Quoted

/-!
# Writing JSON

The written form of values. Texts keep every character that JSON allows to stand
for itself. Lists and records can be laid out with one item per line.
-/

namespace TwinSchema.Json

open Text (lineBreak)

/-- A character inside a written text. -/
def escapeChar (char : Char) : List Char :=
  if char == '"' then ['\\', '"']
  else if char == '\\' then ['\\', '\\']
  else if char == '\n' then ['\\', 'n']
  else if char == '\r' then ['\\', 'r']
  else if char == '\t' then ['\\', 't']
  else if char == '\x08' then ['\\', 'b']
  else if char == '\x0C' then ['\\', 'f']
  else if char.toNat < 0x20 then '\\' :: 'u' :: Text.hexadecimal 4 char.toNat
  else [char]

/-- A text between double quotes. -/
def writeText (text : String) : List Char :=
  '"' :: text.toList.flatMap escapeChar ++ ['"']

/-- A value without parts. -/
def writeScalar : Scalar → List Char
  | .null => "null".toList
  | .bool true => "true".toList
  | .bool false => "false".toList
  | .integer value => Number.writeInteger value
  | .float value => Number.writeFloat Number.documentConvention value
  | .text value => writeText value

/-- Written items between two brackets, one to a line; without items the
brackets touch. -/
def bracketed (opening closing : Char) (step : Int) (level : Nat) :
    List (List Char) → List Char
  | [] => [opening, closing]
  | item :: rest =>
      opening :: lineBreak step (level + 1) ++ item ++
        rest.flatMap (fun next => ',' :: lineBreak step (level + 1) ++ next) ++
        lineBreak step level ++ [closing]

mutual

/-- A value laid out with one item per line, at a nesting level. -/
def writeValue (step : Int) (level : Nat) : Value → List Char
  | .scalar value => writeScalar value
  | .list items => bracketed '[' ']' step level (writeItems step (level + 1) items)
  | .record fields =>
      bracketed '{' '}' step level (writeFields step (level + 1) fields)

/-- The items of a list, each laid out at a nesting level. -/
def writeItems (step : Int) (level : Nat) : List Value → List (List Char)
  | [] => []
  | item :: rest => writeValue step level item :: writeItems step level rest

/-- The fields of a record, each laid out at a nesting level. -/
def writeFields (step : Int) (level : Nat) :
    List (String × Value) → List (List Char)
  | [] => []
  | (name, content) :: rest =>
      (writeText name ++ ':' :: ' ' :: writeValue step level content) ::
        writeFields step level rest

end

/-- A value laid out with one item per line. -/
def write (step : Int) (value : Value) : List Char :=
  writeValue step 0 value

end TwinSchema.Json
