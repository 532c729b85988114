import TwinSchema.Json.Value
import TwinSchema.Number.Notation
import TwinSchema.Text.Quoted

/-!
# Displayed values

How a decoded value is shown inside a message: on one line, with texts between
quotes of their own.
-/

namespace TwinSchema.Json

/-- A value without parts inside a message. -/
def displayScalar : Scalar → String
  | .null => "None"
  | .bool true => "True"
  | .bool false => "False"
  | .integer value => String.ofList (Number.writeInteger value)
  | .float value =>
      String.ofList (Number.writeFloat Number.plainConvention value)
  | .text value => Text.display value

mutual

/-- A value inside a message. -/
def displayValue : Value → String
  | .scalar value => displayScalar value
  | .list items => "[" ++ ", ".intercalate (displayItems items) ++ "]"
  | .record fields => "\x7b" ++ ", ".intercalate (displayFields fields) ++ "\x7d"

/-- The items of a list inside a message. -/
def displayItems : List Value → List String
  | [] => []
  | item :: rest => displayValue item :: displayItems rest

/-- The fields of a record inside a message. -/
def displayFields : List (String × Value) → List String
  | [] => []
  | (name, content) :: rest =>
      (Text.display name ++ ": " ++ displayValue content) :: displayFields rest

end

end TwinSchema.Json
