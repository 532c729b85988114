import TwinSchema.Json.Value
import TwinSchema.Node.Kind

/-!
# Schema nodes

A schema is a tree of nodes. A node carries what its kind needs and nothing of
another kind, together with modifiers that every kind may have.
-/

namespace TwinSchema

/-- What any node may carry besides its kind: a description, and whether a value
may be null or be left out. -/
structure Modifiers where
  description : Option String := none
  nullable : Bool := false
  optional : Bool := false
  deriving DecidableEq, Repr

/-- A value that an enumeration allows. -/
inductive Choice where
  | text (value : String)
  | integer (value : Int)
  | float (value : Number.Binary64)
  deriving DecidableEq, Repr

/-- A choice as plain data. -/
def Choice.toScalar : Choice → Json.Scalar
  | .text value => .text value
  | .integer value => .integer value
  | .float value => .float value

def Choice.ofScalar? : Json.Scalar → Option Choice
  | .text value => some (.text value)
  | .integer value => some (.integer value)
  | .float value => some (.float value)
  | .null | .bool _ => none

theorem Choice.toScalar_of_ofScalar? {scalar : Json.Scalar} {choice : Choice}
    (made : ofScalar? scalar = some choice) : choice.toScalar = scalar := by
  cases scalar with
  | null => cases made
  | bool _ => cases made
  | _ => cases made; rfl

/-- A schema node. An array may leave its items open; an enumeration and a union
may come without any list, which says less than an empty one. -/
inductive Node where
  | leaf (modifiers : Modifiers) (kind : LeafKind)
  | literal (modifiers : Modifiers) (value : Json.Scalar)
  | enumeration (modifiers : Modifiers) (choices : Option (List Choice))
  | array (modifiers : Modifiers) (items : Option Node)
  | object (modifiers : Modifiers) (properties : List (String × Node))
  | union (modifiers : Modifiers) (members : Option (List Node))
  deriving BEq, Repr

namespace Node

def kind : Node → Kind
  | .leaf _ kind => .leaf kind
  | .literal _ _ => .literal
  | .enumeration _ _ => .enumeration
  | .array _ _ => .array
  | .object _ _ => .object
  | .union _ _ => .union

def modifiers : Node → Modifiers
  | .leaf modifiers _ => modifiers
  | .literal modifiers _ => modifiers
  | .enumeration modifiers _ => modifiers
  | .array modifiers _ => modifiers
  | .object modifiers _ => modifiers
  | .union modifiers _ => modifiers

def setModifiers (modifiers : Modifiers) : Node → Node
  | .leaf _ kind => .leaf modifiers kind
  | .literal _ value => .literal modifiers value
  | .enumeration _ choices => .enumeration modifiers choices
  | .array _ items => .array modifiers items
  | .object _ properties => .object modifiers properties
  | .union _ members => .union modifiers members

@[simp] theorem modifiers_setModifiers (modifiers : Modifiers) (node : Node) :
    (node.setModifiers modifiers).modifiers = modifiers := by
  cases node <;> rfl

@[simp] theorem setModifiers_setModifiers (first second : Modifiers)
    (node : Node) :
    (node.setModifiers first).setModifiers second = node.setModifiers second := by
  cases node <;> rfl

@[simp] theorem setModifiers_modifiers (node : Node) :
    node.setModifiers node.modifiers = node := by
  cases node <;> rfl

/-- The node that accepts anything. -/
def any : Node := .leaf {} .any

/-- A node of a kind with nothing in it. A modifier that stands alone also sets
the flag it is named after. -/
def ofKind : Kind → Node
  | .leaf kind =>
      .leaf { nullable := kind == .nullable, optional := kind == .optional } kind
  | .literal => .literal {} .null
  | .enumeration => .enumeration {} (some [])
  | .array => .array {} none
  | .object => .object {} []
  | .union => .union {} (some [])

end Node

/-- Modifiers to add to a node. Flags are only ever switched on, and a missing
description keeps the one there is. -/
structure Change where
  nullable : Bool := false
  optional : Bool := false
  description : Option String := none
  deriving DecidableEq, Repr

/-- A change that asks for nothing. -/
def Change.isVoid (change : Change) : Bool :=
  !change.nullable && !change.optional && change.description.isNone

def Modifiers.apply (modifiers : Modifiers) (change : Change) : Modifiers where
  description := change.description <|> modifiers.description
  nullable := modifiers.nullable || change.nullable
  optional := modifiers.optional || change.optional

def Node.apply (node : Node) (change : Change) : Node :=
  node.setModifiers (node.modifiers.apply change)

end TwinSchema
