/-!
# Issues of a record

What is wrong with a record that should describe settings or a node. An issue
names the place inside the record; its code and its message tell the problem.
-/

namespace TwinSchema.Validation

inductive Problem where
  | missing
  | notOneOf (names : List String)
  | notNode
  | notList
  | notRecord
  | notInteger
  | unreadableInteger
  | oversizedInteger
  | fractionalInteger
  | notFinite
  | notNumber
  | notBoolean
  | unreadableBoolean
  | notText
  | undecodableText
  | below (minimum : Int)
  | above (maximum : Int)
  | refused (reason : String)
  deriving DecidableEq, Repr

/-- Names in quotes, separated by commas, the last one by "or". -/
def alternatives : List String → String
  | [] => ""
  | [name] => s!"'{name}'"
  | [name, last] => s!"'{name}' or '{last}'"
  | name :: rest => s!"'{name}', " ++ alternatives rest

namespace Problem

/-- A short fixed name of a problem. -/
def code : Problem → String
  | .missing => "missing"
  | .notOneOf _ => "enum"
  | .notNode => "model_type"
  | .notList => "list_type"
  | .notRecord => "dict_type"
  | .notInteger => "int_type"
  | .unreadableInteger => "int_parsing"
  | .oversizedInteger => "int_parsing_size"
  | .fractionalInteger => "int_from_float"
  | .notFinite => "finite_number"
  | .notNumber => "float_type"
  | .notBoolean => "bool_type"
  | .unreadableBoolean => "bool_parsing"
  | .notText => "string_type"
  | .undecodableText => "string_unicode"
  | .below _ => "greater_than_equal"
  | .above _ => "less_than_equal"
  | .refused _ => "value_error"

def message : Problem → String
  | .missing => "Field required"
  | .notOneOf names => "Input should be " ++ alternatives names
  | .notNode => "Input should be a valid dictionary or instance of SchemaNode"
  | .notList => "Input should be a valid list"
  | .notRecord => "Input should be a valid dictionary"
  | .notInteger => "Input should be a valid integer"
  | .unreadableInteger =>
      "Input should be a valid integer, unable to parse string as an integer"
  | .oversizedInteger =>
      "Unable to parse input string as an integer, exceeded maximum size"
  | .fractionalInteger =>
      "Input should be a valid integer, got a number with a fractional part"
  | .notFinite => "Input should be a finite number"
  | .notNumber => "Input should be a valid number"
  | .notBoolean => "Input should be a valid boolean"
  | .unreadableBoolean =>
      "Input should be a valid boolean, unable to interpret input"
  | .notText => "Input should be a valid string"
  | .undecodableText =>
      "Input should be a valid string, unable to parse raw data as a unicode string"
  | .below minimum =>
      s!"Input should be greater than or equal to {minimum}"
  | .above maximum => s!"Input should be less than or equal to {maximum}"
  | .refused reason => s!"Value error, {reason}"

end Problem

/-- A problem and the place of the value inside the record. -/
structure Issue where
  place : List String
  problem : Problem
  deriving DecidableEq, Repr

/-- The outcome of checking a value: the value in its proper form, or what is
wrong with it. -/
abbrev Checked (α : Type) := Except (List Issue) α

def issues {α : Type} : Checked α → List Issue
  | .ok _ => []
  | .error issues => issues

end TwinSchema.Validation
