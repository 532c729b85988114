import TwinSchema.Number.Binary64

/-!
# Decoded data

The values that document text decodes to. A record keeps its fields in the order
in which their names first appeared.
-/

namespace TwinSchema.Json

/-- A value without parts. -/
inductive Scalar where
  | null
  | bool (value : Bool)
  | integer (value : Int)
  | float (value : Number.Binary64)
  | text (value : String)
  deriving DecidableEq, Inhabited, Repr

inductive Value where
  | scalar (value : Scalar)
  | list (items : List Value)
  | record (fields : List (String × Value))
  deriving BEq, Inhabited, Repr

namespace Value

def null : Value := .scalar .null

def text (value : String) : Value := .scalar (.text value)

def bool (value : Bool) : Value := .scalar (.bool value)

def integer (value : Int) : Value := .scalar (.integer value)

def field? (name : String) : Value → Option Value
  | .record fields => fields.lookup name
  | _ => none

def text? : Value → Option String
  | .scalar (.text value) => some value
  | _ => none

end Value

end TwinSchema.Json
