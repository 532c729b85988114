import TwinSchema.Node.Candidate
import TwinSchema.Proofs.Node.Throughout
import TwinSchema.Proofs.Node.Valid

/-!
# What nodes carry

A node carries the field of its own kind and no field of another. An accepted
record tells such a node, a valid node is one at every depth, and a change of
modifiers leaves it one. Only a list that a record gives as null under its short
name stays away from the node that needs it.
-/

namespace TwinSchema

open Json (Scalar Value)
open Validation

def Node.toParts (node : Node) : Parts where
  kind := node.kind
  modifiers := node.modifiers
  properties :=
    match node with
    | .object _ properties => some properties
    | _ => none
  items :=
    match node with
    | .array _ items => items
    | _ => none
  choices :=
    match node with
    | .enumeration _ choices => choices
    | _ => none
  members :=
    match node with
    | .union _ members => members
    | _ => none
  literal :=
    match node with
    | .literal _ value => value
    | _ => .null

namespace Parts

/-- Every field stands where the kind of the node asks for it. An array may leave
its items open, and a literal may be null. -/
structure Sound (parts : Parts) : Prop where
  properties : parts.properties.isSome ↔ parts.kind = .object
  choices : parts.choices.isSome ↔ parts.kind = .enumeration
  members : parts.members.isSome ↔ parts.kind = .union
  items : parts.items.isSome → parts.kind = .array
  literal : parts.literal ≠ .null → parts.kind = .literal

variable {parts : Parts}

/-- What the kind of accepted parts does not allow is not there. -/
theorem owner_of_reserved (kept : parts.misplaced? = none) :
    ∀ field ∈ parts.reserved, field.2.2 = true → field.2.1 = parts.kind := by
  rw [misplaced?, Option.map_eq_none_iff, List.find?_eq_none] at kept
  intro field member present
  simpa [present] using kept field member

/-- The node of accepted parts has them as its fields; only the properties that
an object lacks are filled in. -/
theorem toParts_toNode (kept : parts.misplaced? = none) :
    parts.toNode.toParts =
      { parts with
        properties :=
          if parts.kind = .object then some (parts.properties.getD []) else none } := by
  have owner := owner_of_reserved kept
  obtain ⟨kind, modifiers, properties, items, choices, members, literal⟩ := parts
  simp only [reserved, List.forall_mem_cons, Option.isSome_iff_ne_none, ne_eq,
    bne_iff_ne] at owner
  cases kind <;>
    simp_all [toNode, Node.toParts, Node.kind, Node.modifiers]

/-- The node of accepted parts is sound when the lists that it needs are there. -/
theorem sound_toNode (kept : parts.misplaced? = none)
    (choices : parts.kind = .enumeration → parts.choices.isSome)
    (members : parts.kind = .union → parts.members.isSome) :
    parts.toNode.toParts.Sound := by
  have owner := owner_of_reserved kept
  rw [toParts_toNode kept]
  simp only [reserved, List.forall_mem_cons] at owner
  obtain ⟨-, ownItems, ownChoices, ownMembers, ownLiteral, -⟩ := owner
  refine ⟨?_, ?_, ?_, ?_, ?_⟩
  · simp only
    split <;> simp_all
  · exact ⟨fun present => (ownChoices present).symm, choices⟩
  · exact ⟨fun present => (ownMembers present).symm, members⟩
  · exact fun present => (ownItems present).symm
  · exact fun present => (ownLiteral (by simpa using present)).symm

end Parts

namespace Node

theorem isValid_of_mem_children {node child : Node} (valid : node.isValid = true)
    (member : child ∈ node.children) : child.isValid = true := by
  cases node with
  | array modifiers items =>
      cases items with
      | none => cases member
      | some items =>
          rw [List.mem_singleton.mp member]
          exact valid
  | object modifiers properties =>
      obtain ⟨entry, inside, rfl⟩ := List.mem_map.mp member
      exact (isValid_object.mp valid).2 entry inside
  | union modifiers members =>
      cases members with
      | none => cases member
      | some members => exact areValidMembers_iff.mp valid child member
  | _ => cases member

theorem sound_of_isValid {node : Node} (valid : node.isValid = true) :
    node.toParts.Sound := by
  cases node with
  | enumeration modifiers choices =>
      cases choices with
      | none => cases valid
      | some choices => constructor <;> simp [toParts, kind]
  | union modifiers members =>
      cases members with
      | none => cases valid
      | some members => constructor <;> simp [toParts, kind]
  | _ => constructor <;> simp [toParts, kind]

theorem throughout_isValid {node : Node} (valid : node.isValid = true) :
    node.Throughout fun part => part.isValid = true := by
  induction node using induction_on_children with
  | step node ih =>
      refine throughout_iff.mpr ⟨valid, fun child member => ?_⟩
      exact ih child member (isValid_of_mem_children valid member)

/-- A valid node is sound at every depth. -/
theorem throughout_of_isValid {node : Node} (valid : node.isValid = true) :
    node.Throughout fun part => part.toParts.Sound :=
  fun place member => sound_of_isValid (throughout_isValid valid place member)

/-- A change of modifiers leaves every other field as it is. -/
theorem toParts_apply (node : Node) (change : Change) :
    (node.apply change).toParts =
      { node.toParts with modifiers := node.modifiers.apply change } := by
  cases node <;> rfl

theorem throughout_apply {node : Node} (change : Change)
    (throughout : node.Throughout fun part => part.toParts.Sound) :
    (node.apply change).Throughout fun part => part.toParts.Sound := by
  have same : (node.apply change).children = node.children := by
    cases node with
    | array modifiers items => cases items <;> rfl
    | union modifiers members => cases members <;> rfl
    | _ => rfl
  obtain ⟨sound, below⟩ := throughout_iff.mp throughout
  refine throughout_iff.mpr ⟨?_, ?_⟩
  · rw [toParts_apply]
    exact ⟨sound.properties, sound.choices, sound.members, sound.items, sound.literal⟩
  · rw [same]
    exact below

end Node

/-- What a field that may be missing holds, where it was read without issue. -/
def present? {α : Type} : Option (Checked (Option α)) → Option α
  | some (.ok value) => value
  | _ => none

theorem present?_of_branch {α : Type} {field : Option (Checked (Option α))}
    {value : Option α} (read : branch field = .ok value) : present? field = value := by
  cases field with
  | none => cases read; rfl
  | some checked => cases read; rfl

/-- The nodes that a record is given. -/
def Branches.nodes (branches : Branches) : List Node :=
  ((present? branches.properties).getD []).map Prod.snd ++
    (present? branches.items).toList ++
    (present? branches.shortMembers).getD [] ++
    (present? branches.longMembers).getD []

/-- No list that the kind of a record needs is given as null under its short
name. -/
structure GivesLists (place : List String) (fields : List (String × Value))
    (branches : Branches) : Prop where
  choices : readKind fields place = .ok .enumeration →
    fields.lookup "enumValues" ≠ some (.scalar .null)
  members : readKind fields place = .ok .union →
    branches.shortMembers ≠ some (.ok none)

/-- The choices that a record gives under either name. -/
def choicesGiven (place : List String) (fields : List (String × Value)) :
    Checked (Option (List Choice)) :=
  let (name, field) := eitherField fields "enumValues" "enum_values"
  branch (field.map (readOptionalChoices (place ++ [name])))

/-- The parts that a record tells: its fields put nothing in the wrong place, and
the lists among them are filled in where they are due. -/
structure Parts.Told (parts : Parts) (place : List String)
    (fields : List (String × Value)) (branches : Branches) : Prop where
  kept : parts.misplaced? = none
  kind : readKind fields place = .ok parts.kind
  properties : present? branches.properties = parts.properties
  items : present? branches.items = parts.items
  choices : ∃ choices, choicesGiven place fields = .ok choices ∧
    parts.choices = filled (parts.kind == .enumeration)
      (fields.lookup "enumValues").isSome choices
  members : ∃ members,
    branch (branches.shortMembers <|> branches.longMembers) = .ok members ∧
      parts.members = filled (parts.kind == .union)
        branches.shortMembers.isSome members

section Records

variable {place : List String} {fields : List (String × Value)}
  {branches : Branches} {parts : Parts}

theorem exists_told_of_assemble {node : Node}
    (accepted : assemble place fields branches = .ok node) :
    ∃ parts : Parts, parts.Told place fields branches ∧ node = parts.toNode := by
  simp only [assemble] at accepted
  split at accepted
  next kindRead _ _ _ propertiesRead itemsRead choicesRead membersRead _ =>
    split at accepted
    next kept =>
      cases accepted
      exact ⟨_, ⟨kept, kindRead, present?_of_branch propertiesRead,
        present?_of_branch itemsRead, ⟨_, choicesRead, rfl⟩,
        ⟨_, membersRead, rfl⟩⟩, rfl⟩
    next => cases accepted
  next => cases accepted

theorem isSome_of_readOptionalChoices {value : Value}
    {choices : Option (List Choice)}
    (read : readOptionalChoices place value = .ok choices)
    (given : value ≠ .scalar .null) : choices.isSome := by
  rw [readOptionalChoices.eq_def] at read
  split at read
  next => exact absurd rfl given
  next values =>
    cases told : readChoices place 0 values with
    | error issues => rw [told] at read; cases read
    | ok choices => rw [told] at read; cases read; rfl
  next => cases read

/-- A list that is due is filled in unless its short name was used. -/
theorem isSome_filled {α : Type} {short : Bool} {list : Option (List α)}
    (given : short = true → list.isSome) : (filled true short list).isSome := by
  cases short with
  | true =>
      rw [filled, if_neg (by simp)]
      exact given rfl
  | false => cases list <;> rfl

theorem Parts.Told.isSome_choices (told : parts.Told place fields branches)
    (given : GivesLists place fields branches) (due : parts.kind = .enumeration) :
    parts.choices.isSome := by
  obtain ⟨choices, read, same⟩ := told.choices
  rw [same, due]
  refine isSome_filled fun short => ?_
  obtain ⟨value, found⟩ := Option.isSome_iff_exists.mp short
  simp only [choicesGiven, eitherField, found] at read
  refine isSome_of_readOptionalChoices read fun null => ?_
  exact given.choices (by rw [told.kind, due]) (by rw [found, null])

theorem Parts.Told.isSome_members (told : parts.Told place fields branches)
    (given : GivesLists place fields branches) (due : parts.kind = .union) :
    parts.members.isSome := by
  obtain ⟨members, read, same⟩ := told.members
  rw [same, due]
  refine isSome_filled fun short => ?_
  obtain ⟨checked, found⟩ := Option.isSome_iff_exists.mp short
  rw [found] at read
  cases members with
  | some members => rfl
  | none =>
      have null : checked = .ok none := read
      exact absurd (null ▸ found) (given.members (by rw [told.kind, due]))

/-- The nodes below the node of a record are given with the record. -/
theorem Parts.Told.mem_nodes (told : parts.Told place fields branches)
    {child : Node} (member : child ∈ parts.toNode.children) :
    child ∈ branches.nodes := by
  simp only [Branches.nodes, told.properties, told.items, List.mem_append]
  rw [toNode.eq_def] at member
  cases due : parts.kind with
  | array =>
      simp only [due] at member
      cases found : parts.items with
      | none => simp [found, Node.children] at member
      | some items => simp_all [Node.children]
  | object =>
      simp only [due, Node.children] at member
      exact .inl (.inl (.inl member))
  | union =>
      obtain ⟨members, read, same⟩ := told.members
      simp only [due, same] at member
      have inside : child ∈ members.getD [] := by
        rw [filled] at member
        split at member
        next => cases member
        next =>
          cases members with
          | none => cases member
          | some members => exact member
      cases found : branches.shortMembers with
      | some checked =>
          rw [found] at read
          have same : present? (some checked) = members := present?_of_branch read
          rw [same]
          exact .inl (.inr inside)
      | none =>
          rw [found] at read
          have same : present? branches.longMembers = members :=
            present?_of_branch read
          rw [same]
          exact .inr inside
  | _ => simp [due, Node.children] at member

/-- A record that is accepted gives a sound node when the nodes in it are
sound. -/
theorem throughout_assemble {node : Node}
    (accepted : assemble place fields branches = .ok node)
    (given : GivesLists place fields branches)
    (below : ∀ child ∈ branches.nodes,
      child.Throughout fun part => part.toParts.Sound) :
    node.Throughout fun part => part.toParts.Sound := by
  obtain ⟨parts, told, rfl⟩ := exists_told_of_assemble accepted
  refine Node.throughout_iff.mpr ⟨?_, fun child member => ?_⟩
  · exact Parts.sound_toNode told.kept (told.isSome_choices given)
      (told.isSome_members given)
  · exact below child (told.mem_nodes member)

end Records

end TwinSchema
