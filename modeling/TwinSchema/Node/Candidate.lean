import TwinSchema.Node.Basic
import TwinSchema.Validation.Reading

/-!
# Nodes from records

A node may be given as a record of loosely typed fields. Reading one collects
everything that is wrong with it. Three fields have two spellings each; the
short one is looked at first.
-/

namespace TwinSchema

open Json Validation

/-- The field of a record under either of two spellings, with the one found. -/
def eitherField (fields : List (String × Value)) (first second : String) :
    String × Option Value :=
  match fields.lookup first with
  | some value => (first, some value)
  | none => (second, fields.lookup second)

/-- A field that may be missing, with the value it then has. -/
def optionalField {α : Type} (fields : List (String × Value))
    (place : List String) (name : String) (default : α)
    (read : List String → Value → Checked α) : Checked α :=
  match fields.lookup name with
  | none => .ok default
  | some value => read (place ++ [name]) value

/-- A text or nothing. -/
def readOptionalText (place : List String) : Value → Checked (Option String)
  | .scalar .null => .ok none
  | value => (readText place value).map some

/-- The kind that a record names. -/
def readKind (fields : List (String × Value)) (place : List String) :
    Checked Kind :=
  let place := place ++ ["kind"]
  match fields.lookup "kind" with
  | none => .error [⟨place, .missing⟩]
  | some value =>
      match value.text?.bind Kind.ofName? with
      | some kind => .ok kind
      | none => .error [⟨place, .notOneOf (Kind.all.map Kind.name)⟩]

/-- One of the values of an enumeration. A truth value counts as a number. -/
def readChoice (place : List String) : Value → Checked Choice
  | .scalar (.text value) => .ok (.text value)
  | .scalar (.integer value) => .ok (.integer value)
  | .scalar (.float value) => .ok (.float value)
  | .scalar (.bool value) => .ok (.integer (if value then 1 else 0))
  | _ => .error
      [⟨place ++ ["str"], .notText⟩, ⟨place ++ ["int"], .notInteger⟩,
        ⟨place ++ ["float"], .notNumber⟩]

/-- Both outcomes, or all that is wrong with either. -/
def both {α β : Type} (first : Checked α) (second : Checked β) :
    Checked (α × β) :=
  match first, second with
  | .ok left, .ok right => .ok (left, right)
  | first, second => .error (issues first ++ issues second)

theorem both_eq_ok {α β γ : Type} {first : Checked α} {second : Checked β}
    {combine : α × β → γ} {result : γ}
    (read : (both first second).map combine = .ok result) :
    ∃ left right, first = .ok left ∧ second = .ok right ∧
      combine (left, right) = result := by
  cases first with
  | error issues => cases read
  | ok left =>
      cases second with
      | error issues => cases read
      | ok right =>
          cases read
          exact ⟨left, right, rfl, rfl, rfl⟩

/-- The values of an enumeration from an index on. -/
def readChoices (place : List String) (index : Nat) :
    List Value → Checked (List Choice)
  | [] => .ok []
  | value :: rest =>
      (both (readChoice (place ++ [toString index]) value)
        (readChoices place (index + 1) rest)).map fun (head, tail) => head :: tail

/-- The values of an enumeration, or nothing. -/
def readOptionalChoices (place : List String) :
    Value → Checked (Option (List Choice))
  | .scalar .null => .ok none
  | .list values => (readChoices place 0 values).map some
  | _ => .error [⟨place, .notList⟩]

def readLiteral (place : List String) : Value → Checked Scalar
  | .scalar value => .ok value
  | _ => .error
      [⟨place ++ ["bool"], .notBoolean⟩, ⟨place ++ ["int"], .notInteger⟩,
        ⟨place ++ ["float"], .notNumber⟩, ⟨place ++ ["str"], .notText⟩]

/-- The fields of a record that hold nodes, as far as they are present. -/
structure Branches where
  properties : Option (Checked (Option (List (String × Node)))) := none
  items : Option (Checked (Option Node)) := none
  shortMembers : Option (Checked (Option (List Node))) := none
  longMembers : Option (Checked (Option (List Node))) := none

/-- A field that may be missing and then holds nothing. -/
def branch {α : Type} (field : Option (Checked (Option α))) :
    Checked (Option α) :=
  field.getD (.ok none)

/-- The fields of a record after each has been read on its own. -/
structure Parts where
  kind : Kind
  modifiers : Modifiers
  properties : Option (List (String × Node))
  items : Option Node
  choices : Option (List Choice)
  members : Option (List Node)
  literal : Scalar

/-- The fields that only one kind of node may carry: the field, that kind, and
whether the parts carry it. -/
def Parts.reserved (parts : Parts) : List (String × Kind × Bool) :=
  [("properties", .object, parts.properties.isSome),
    ("items", .array, parts.items.isSome),
    ("enum_values", .enumeration, parts.choices.isSome),
    ("union_members", .union, parts.members.isSome),
    ("literal_value", .literal, parts.literal != .null)]

/-- The first field that the kind of the node does not allow. -/
def Parts.misplaced? (parts : Parts) : Option (String × Kind) :=
  (parts.reserved.find? fun (_, owner, present) =>
    present && owner != parts.kind).map fun (field, owner, _) => (field, owner)

/-- The node that the parts describe, whatever is superfluous in them. -/
def Parts.toNode (parts : Parts) : Node :=
  match parts.kind with
  | .leaf kind => .leaf parts.modifiers kind
  | .literal => .literal parts.modifiers parts.literal
  | .enumeration => .enumeration parts.modifiers parts.choices
  | .array => .array parts.modifiers parts.items
  | .object => .object parts.modifiers (parts.properties.getD [])
  | .union => .union parts.modifiers parts.members

/-- The list of a field with two spellings. Where it is due and neither spelling
is there, it is empty; so it is where only the long one is there and null. -/
def filled {α : Type} (due short : Bool) (list : Option (List α)) :
    Option (List α) :=
  if due && !short && list.isNone then some [] else list

/-- A node from the fields of its record and the nodes read from them. -/
def assemble (place : List String) (fields : List (String × Value))
    (branches : Branches) : Checked Node :=
  let kind := readKind fields place
  let description := optionalField fields place "description" none readOptionalText
  let nullable := optionalField fields place "nullable" false readBool
  let optional := optionalField fields place "optional" false readBool
  let (choicesName, choicesField) := eitherField fields "enumValues" "enum_values"
  let choices := branch (choicesField.map
    (readOptionalChoices (place ++ [choicesName])))
  let members := branch (branches.shortMembers <|> branches.longMembers)
  let (literalName, literalField) :=
    eitherField fields "literalValue" "literal_value"
  let literal := (literalField.map (readLiteral (place ++ [literalName]))).getD
    (.ok .null)
  let properties := branch branches.properties
  let items := branch branches.items
  match kind, description, nullable, optional, properties, items, choices,
    members, literal with
  | .ok kind, .ok description, .ok nullable, .ok optional, .ok properties,
    .ok items, .ok choices, .ok members, .ok literal =>
      let parts : Parts :=
        { kind
          modifiers := { description, nullable, optional }
          properties
          items
          choices := filled (kind == .enumeration)
            (fields.lookup "enumValues").isSome choices
          members := filled (kind == .union)
            branches.shortMembers.isSome members
          literal }
      match parts.misplaced? with
      | none => .ok parts.toNode
      | some (field, owner) =>
          .error [⟨place, .refused
            (s!"'{field}' is only allowed on {owner.name} nodes, " ++
              s!"not on {kind.name} nodes")⟩]
  | kind, description, nullable, optional, properties, items, choices, members,
    literal =>
      .error (issues kind ++ issues description ++ issues nullable ++
        issues optional ++ issues properties ++ issues items ++
        issues choices ++ issues members ++ issues literal)

mutual

/-- A node from a value that should be a record, at a place inside a larger
record. -/
def readNode (place : List String) : Value → Checked Node
  | .record fields => assemble place fields (readBranches place fields)
  | _ => .error [⟨place, .notNode⟩]

/-- The fields of a record that hold nodes. -/
def readBranches (place : List String) : List (String × Value) → Branches
  | [] => {}
  | (name, value) :: rest =>
      let others := readBranches place rest
      let here := place ++ [name]
      match name with
      | "properties" =>
          { others with properties := some (match value with
              | .scalar .null => .ok none
              | .record entries => (readProperties here entries).map some
              | _ => .error [⟨here, .notRecord⟩]) }
      | "items" =>
          { others with items := some (match value with
              | .scalar .null => .ok none
              | value => (readNode here value).map some) }
      | "unionMembers" =>
          { others with shortMembers := some (match value with
              | .scalar .null => .ok none
              | .list values => (readMembers here 0 values).map some
              | _ => .error [⟨here, .notList⟩]) }
      | "union_members" =>
          { others with longMembers := some (match value with
              | .scalar .null => .ok none
              | .list values => (readMembers here 0 values).map some
              | _ => .error [⟨here, .notList⟩]) }
      | _ => others

/-- The nodes of named properties. -/
def readProperties (place : List String) :
    List (String × Value) → Checked (List (String × Node))
  | [] => .ok []
  | (name, value) :: rest =>
      (both (readNode (place ++ [name]) value) (readProperties place rest)).map
        fun (node, others) => (name, node) :: others

def readMembers (place : List String) (index : Nat) :
    List Value → Checked (List Node)
  | [] => .ok []
  | value :: rest =>
      (both (readNode (place ++ [toString index]) value)
        (readMembers place (index + 1) rest)).map
        fun (node, others) => node :: others

end

/-- The node that a value describes, or all that is wrong with it. -/
def Node.ofRecord (value : Value) : Checked Node :=
  readNode [] value

end TwinSchema
