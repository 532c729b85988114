/-!
# Kinds of schema

The closed set of kinds a schema node may have, and the names by which documents
and source text tell them.
-/

namespace TwinSchema

/-- The kinds without parts: the primitive ones, the two modifiers that can
stand alone, and the kind that accepts anything. -/
inductive LeafKind where
  | string
  | number
  | boolean
  | null
  | undefined
  | bigint
  | date
  | nullable
  | optional
  | any
  deriving DecidableEq, Repr

/-- The kinds of schema nodes. -/
inductive Kind where
  | leaf (kind : LeafKind)
  | literal
  | enumeration
  | array
  | object
  | union
  deriving DecidableEq, Repr

def LeafKind.name : LeafKind → String
  | .string => "string"
  | .number => "number"
  | .boolean => "boolean"
  | .null => "null"
  | .undefined => "undefined"
  | .bigint => "bigint"
  | .date => "date"
  | .nullable => "nullable"
  | .optional => "optional"
  | .any => "any"

/-- A primitive kind describes one type of plain value. -/
def LeafKind.isPrimitive : LeafKind → Bool
  | .nullable | .optional | .any => false
  | _ => true

namespace Kind

def name : Kind → String
  | .leaf kind => kind.name
  | .literal => "literal"
  | .enumeration => "enum"
  | .array => "array"
  | .object => "object"
  | .union => "union"

/-- Every kind, in the order in which they are listed. -/
def all : List Kind :=
  [.leaf .string, .leaf .number, .leaf .boolean, .leaf .null, .leaf .undefined,
    .leaf .bigint, .leaf .date, .literal, .enumeration, .array, .object, .union,
    .leaf .nullable, .leaf .optional, .leaf .any]

def ofName? (name : String) : Option Kind :=
  all.find? fun kind => kind.name == name

def isPrimitive : Kind → Bool
  | .leaf kind => kind.isPrimitive
  | _ => false

def isModifier : Kind → Bool
  | .leaf .nullable | .leaf .optional => true
  | _ => false

theorem ofName?_name (kind : Kind) : ofName? kind.name = some kind := by
  cases kind with
  | leaf kind => cases kind <;> decide
  | _ => decide

end Kind

end TwinSchema
