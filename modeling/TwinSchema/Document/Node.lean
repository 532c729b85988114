import TwinSchema.Document.Shape
import TwinSchema.Node.Candidate

/-!
# Nodes in documents

The records of a document become nodes. Only the fields that belong to a
record's type are looked at, and a type that is not known accepts anything. A
record of another shape gives no node; a record that the check of shapes has let
through always gives one.
-/

namespace TwinSchema.Document

open Json

/-- The value of the first of several fields that is present. -/
def firstPresent {α : Type} (names : List String)
    (fields : List (String × α)) : Option α :=
  names.findSome? fun name => fields.lookup name

theorem mem_of_lookup {α : Type} {fields : List (String × α)} {name : String}
    {content : α} (found : fields.lookup name = some content) :
    (name, content) ∈ fields := by
  obtain ⟨before, after, rfl, -⟩ := List.lookup_eq_some_iff.mp found
  simp

theorem exists_of_firstPresent {α : Type} {names : List String}
    {fields : List (String × α)} {content : α}
    (found : firstPresent names fields = some content) :
    ∃ name ∈ names, (name, content) ∈ fields := by
  obtain ⟨name, member, looked⟩ := List.exists_of_findSome?_eq_some found
  exact ⟨name, member, mem_of_lookup looked⟩

/-- What was read from the fields of a record that hold nodes. A field that is
present may still have given nothing. -/
structure Branches where
  properties : Option (Option (List (String × Node))) := none
  items : Option (Option Node) := none
  members : List (String × Option (List Node)) := []

/-- The kind that a record tells, if it tells a type at all. -/
def kind? (fields : List (String × Value)) : Option Kind :=
  (fields.lookup "type").map fun type =>
    (type.text?.bind Kind.ofName?).getD (.leaf .any)

def modifiers? (fields : List (String × Value)) : Option Modifiers := do
  let description ←
    (optionalField fields [] "description" none readOptionalText).toOption
  let nullable ←
    (optionalField fields [] "nullable" false Validation.readBool).toOption
  let optional ←
    (optionalField fields [] "optional" false Validation.readBool).toOption
  return { description, nullable, optional }

/-- Whether a value without parts counts as no list at all. -/
def saysNothing : Scalar → Bool
  | .null | .bool false | .integer 0 => true
  | .float (.finite _ ordinal) => ordinal.val == 0
  | _ => false

/-- The items of a value where a list is due. A text has its characters and a
record its names. -/
def items? : Value → Option (List Value)
  | .list values => some values
  | .record fields => some (fields.map fun (name, _) => .text name)
  | .scalar (.text value) =>
      some (value.toList.map fun char => .text (String.singleton char))
  | .scalar value => if saysNothing value then some [] else none

/-- The values that an enumeration may have. -/
def choices? (fields : List (String × Value)) : Option (List Choice) :=
  match firstPresent choiceFields fields with
  | none => some []
  | some value => do (readChoices [] 0 (← items? value)).toOption

def literal? (fields : List (String × Value)) : Option Scalar :=
  match firstPresent literalFields fields with
  | none => some .null
  | some value => (readLiteral [] value).toOption

/-- No members, if a value that is no list has no items. No item of it would
describe a node. -/
def noMembers? (value : Value) : Option (List Node) :=
  (items? value).bind fun items => if items.isEmpty then some [] else none

theorem eq_nil_of_noMembers? {value : Value} {members : List Node}
    (told : noMembers? value = some members) : members = [] := by
  obtain ⟨items, -, empty⟩ := Option.bind_eq_some_iff.mp told
  split at empty
  next => exact (Option.some.inj empty).symm
  next => cases empty

/-- A node of a kind from the fields of its record and what was read from
them. -/
def nodeOfKind? (kind : Kind) (modifiers : Modifiers)
    (fields : List (String × Value)) (branches : Branches) : Option Node :=
  match kind with
  | .leaf kind => some (.leaf modifiers kind)
  | .literal => (literal? fields).map fun value => .literal modifiers value
  | .enumeration =>
      (choices? fields).map fun choices => .enumeration modifiers (some choices)
  | .array =>
      match branches.items with
      | none => some (.array modifiers none)
      | some items => items.map fun items => .array modifiers (some items)
  | .object =>
      (branches.properties.getD (some [])).map fun properties =>
        .object modifiers properties
  | .union =>
      ((firstPresent memberFields branches.members).getD (some [])).map
        fun members => .union modifiers (some members)

def buildNode? (fields : List (String × Value)) (branches : Branches) :
    Option Node := do
  nodeOfKind? (← kind? fields) (← modifiers? fields) fields branches

mutual

/-- The node that a value describes. -/
def node? : Value → Option Node
  | .record fields => buildNode? fields (branches fields)
  | _ => none

/-- What the fields of a record that hold nodes give. -/
def branches : List (String × Value) → Branches
  | [] => {}
  | (name, value) :: rest =>
      let others := branches rest
      if name = "properties" then
        { others with properties := some (match value with
            | .record entries => properties? entries
            | _ => none) }
      else if name = "items" then { others with items := some (node? value) }
      else if name ∈ memberFields then
        { others with members := (name, match value with
            | .list values => members? values
            | value => noMembers? value) :: others.members }
      else others

/-- The nodes of named properties. -/
def properties? : List (String × Value) → Option (List (String × Node))
  | [] => some []
  | (name, value) :: rest =>
      (node? value).bind fun node =>
        (properties? rest).map fun others => (name, node) :: others

/-- The nodes of members. -/
def members? : List Value → Option (List Node)
  | [] => some []
  | value :: rest =>
      (node? value).bind fun node =>
        (members? rest).map fun others => node :: others

end

/-- What one field more gives: something for the list or node that its name asks
for, or nothing. -/
theorem branches_cons (name : String) (value : Value)
    (rest : List (String × Value)) :
    (name = "properties" ∧ branches ((name, value) :: rest) =
        { branches rest with properties := some (match value with
            | .record entries => properties? entries
            | _ => none) }) ∨
      (name = "items" ∧ branches ((name, value) :: rest) =
        { branches rest with items := some (node? value) }) ∨
      (name ∈ memberFields ∧ branches ((name, value) :: rest) =
        { branches rest with members := (name, match value with
            | .list values => members? values
            | value => noMembers? value) :: (branches rest).members }) ∨
      branches ((name, value) :: rest) = branches rest := by
  rw [branches.eq_def]
  simp only
  split
  next named => exact .inl ⟨named, rfl⟩
  next =>
    split
    next named => exact .inr (.inl ⟨named, rfl⟩)
    next =>
      split
      next union => exact .inr (.inr (.inl ⟨union, rfl⟩))
      next => exact .inr (.inr (.inr rfl))

theorem exists_readChoices (place : List String) (index : Nat)
    {places : List Place} {start : Nat} {values : List Value}
    (shaped : checkChoices places start values = []) :
    ∃ choices, readChoices place index values = .ok choices := by
  induction values generalizing start index with
  | nil => exact ⟨[], rfl⟩
  | cons value rest ih =>
      rw [checkChoices, List.append_eq_nil_iff, checkForm_eq_nil] at shaped
      obtain ⟨others, read⟩ := ih (index + 1) shaped.2
      have choice : ∃ choice,
          readChoice (place ++ [toString index]) value = .ok choice := by
        rcases value with (_ | _ | _ | _ | _) | _ | _ <;>
          simp [Form.ofValue, choiceForms] at shaped <;> exact ⟨_, rfl⟩
      obtain ⟨choice, told⟩ := choice
      exact ⟨choice :: others, by rw [readChoices, told, read]; rfl⟩

section Shaped

variable {places : List Place} {fields : List (String × Value)}
  (shaped : checkFields places fields = [])

include shaped

theorem exists_description : ∃ description,
    optionalField fields [] "description" none readOptionalText =
      .ok description := by
  rw [optionalField]
  cases found : fields.lookup "description" with
  | none => exact ⟨none, rfl⟩
  | some value =>
      have form : (∃ text, value = .text text) ∨ value = .null := by
        simpa [checkFields, checkForm_eq_nil, ofValue_eq_text, ofValue_eq_null]
          using checkFields_of_mem shaped (mem_of_lookup found)
      rcases form with ⟨text, rfl⟩ | rfl
      · exact ⟨some text, rfl⟩
      · exact ⟨none, rfl⟩

theorem exists_flag {name : String} (flag : name = "nullable" ∨ name = "optional") :
    ∃ truth, optionalField fields [] name false Validation.readBool = .ok truth := by
  rw [optionalField]
  cases found : fields.lookup name with
  | none => exact ⟨false, rfl⟩
  | some value =>
      have form : ∃ truth, value = .bool truth := by
        rcases flag with rfl | rfl <;>
          simpa [checkFields, checkForm_eq_nil, ofValue_eq_truth] using
            checkFields_of_mem shaped (mem_of_lookup found)
      obtain ⟨truth, rfl⟩ := form
      exact ⟨truth, rfl⟩

theorem isSome_modifiers? : (modifiers? fields).isSome = true := by
  obtain ⟨description, told⟩ := exists_description shaped
  obtain ⟨nullable, first⟩ := exists_flag shaped (.inl rfl)
  obtain ⟨optional, second⟩ := exists_flag shaped (.inr rfl)
  rw [modifiers?, told, first, second]
  rfl

theorem isSome_choices? : (choices? fields).isSome = true := by
  rw [choices?]
  split
  next => rfl
  next value found =>
    obtain ⟨name, member, inside⟩ := exists_of_firstPresent found
    have form : ∃ values, value = .list values ∧
        checkChoices (places ++ [.field name]) 0 values = [] := by
      simp only [choiceFields, List.mem_cons, List.not_mem_nil, or_false] at member
      rcases member with rfl | rfl <;> cases value <;>
        simpa [checkFields, choiceFields] using checkFields_of_mem shaped inside
    obtain ⟨values, rfl, checked⟩ := form
    obtain ⟨choices, read⟩ := exists_readChoices [] 0 checked
    rw [items?, Option.bind_eq_bind, Option.bind_some, read]
    rfl

theorem isSome_literal? : (literal? fields).isSome = true := by
  rw [literal?]
  split
  next => rfl
  next value found =>
    obtain ⟨name, member, inside⟩ := exists_of_firstPresent found
    have form : ∃ scalar, value = .scalar scalar := by
      simp only [literalFields, List.mem_cons, List.not_mem_nil, or_false] at member
      rcases member with rfl | rfl | rfl <;>
        simpa [checkFields, choiceFields, memberFields, literalFields,
          checkForm_eq_nil, ofValue_mem_literalForms] using
            checkFields_of_mem shaped inside
    obtain ⟨scalar, rfl⟩ := form
    rfl

end Shaped

/-- What every field that holds nodes has given: something. -/
structure Branches.Read (branches : Branches) : Prop where
  properties : ∀ given ∈ branches.properties, given.isSome = true
  items : ∀ given ∈ branches.items, given.isSome = true
  members : ∀ entry ∈ branches.members, entry.2.isSome = true

theorem isSome_buildNode? {places : List Place} {fields : List (String × Value)}
    {branches : Branches} (typed : checkTyped places fields = [])
    (shaped : checkFields places fields = []) (read : branches.Read) :
    (buildNode? fields branches).isSome = true := by
  have kind : (kind? fields).isSome = true := by
    rw [checkTyped] at typed
    split at typed
    next known => rw [kind?, Option.isSome_map, known]
    next => cases typed
  obtain ⟨kind, told⟩ := Option.isSome_iff_exists.mp kind
  obtain ⟨modifiers, modified⟩ :=
    Option.isSome_iff_exists.mp (isSome_modifiers? shaped)
  simp only [buildNode?, nodeOfKind?, told, modified, Option.bind_eq_bind,
    Option.bind_some]
  cases kind with
  | leaf kind => rfl
  | literal => simpa using isSome_literal? shaped
  | enumeration => simpa using isSome_choices? shaped
  | array =>
      cases held : branches.items with
      | none => rfl
      | some items => simpa using read.items items held
  | object =>
      cases held : branches.properties with
      | none => rfl
      | some properties => simpa using read.properties properties held
  | union =>
      cases held : firstPresent memberFields branches.members with
      | none => rfl
      | some members =>
          obtain ⟨name, -, inside⟩ := exists_of_firstPresent held
          simpa using read.members _ inside

section Field

variable {places : List Place} {name : String} {value : Value}

theorem named_of_shaped (shaped : checkFields places [("properties", value)] = []) :
    ∃ entries, value = .record entries ∧
      checkProperties (places ++ [.field "properties"]) entries = [] := by
  cases value <;> simp_all [checkFields]

theorem items_of_shaped (shaped : checkFields places [("items", value)] = []) :
    checkNode (places ++ [.field "items"]) value = [] := by
  cases value <;> simp_all [checkFields]

theorem members_of_shaped (union : name ∈ memberFields)
    (shaped : checkFields places [(name, value)] = []) :
    ∃ values, value = .list values ∧
      checkMembers (places ++ [.field name]) 0 values = [] := by
  simp only [memberFields, List.mem_cons, List.not_mem_nil, or_false] at union
  rcases union with rfl | rfl | rfl <;> cases value <;>
    simp_all [checkFields, choiceFields, memberFields]

end Field

mutual

/-- A value that has passed the check of shapes gives a node. -/
theorem isSome_node? : (value : Value) → ∀ {places}, checkNode places value = [] →
    (node? value).isSome = true
  | .scalar _, _, shaped => by
      rw [checkNode] at shaped
      · cases shaped
      · simp
  | .list _, _, shaped => by
      rw [checkNode] at shaped
      · cases shaped
      · simp
  | .record fields, places, shaped => by
      rw [checkNode, List.append_eq_nil_iff] at shaped
      rw [node?]
      exact isSome_buildNode? shaped.1 shaped.2 (read_branches fields shaped.2)

theorem read_branches : (fields : List (String × Value)) → ∀ {places},
    checkFields places fields = [] → (branches fields).Read
  | [], _, _ => by
      rw [branches]
      exact ⟨by simp, by simp, by simp⟩
  | (name, value) :: rest, places, shaped => by
      rw [← List.singleton_append, checkFields_append, List.append_eq_nil_iff] at shaped
      obtain ⟨here, later⟩ := shaped
      have others := read_branches rest later
      rcases branches_cons name value rest with
        ⟨rfl, same⟩ | ⟨rfl, same⟩ | ⟨union, same⟩ | same <;> rw [same]
      · obtain ⟨entries, rfl, checked⟩ := named_of_shaped here
        refine ⟨?_, others.items, others.members⟩
        intro given present
        rw [← Option.some.inj present]
        exact isSome_properties? entries checked
      · refine ⟨others.properties, ?_, others.members⟩
        intro given present
        rw [← Option.some.inj present]
        exact isSome_node? value (items_of_shaped here)
      · obtain ⟨values, rfl, checked⟩ := members_of_shaped union here
        refine ⟨others.properties, others.items, ?_⟩
        intro entry member
        rcases List.mem_cons.mp member with rfl | later
        · exact isSome_members? values checked
        · exact others.members entry later
      · exact others

theorem isSome_properties? : (entries : List (String × Value)) → ∀ {places},
    checkProperties places entries = [] → (properties? entries).isSome = true
  | [], _, _ => by rw [properties?]; rfl
  | (name, value) :: rest, places, shaped => by
      rw [checkProperties, List.append_eq_nil_iff] at shaped
      obtain ⟨node, read⟩ := Option.isSome_iff_exists.mp (isSome_node? value shaped.1)
      rw [properties?, read, Option.bind_some, Option.isSome_map]
      exact isSome_properties? rest shaped.2

theorem isSome_members? : (values : List Value) → ∀ {places index},
    checkMembers places index values = [] → (members? values).isSome = true
  | [], _, _, _ => by rw [members?]; rfl
  | value :: rest, places, index, shaped => by
      rw [checkMembers, List.append_eq_nil_iff] at shaped
      obtain ⟨node, read⟩ := Option.isSome_iff_exists.mp (isSome_node? value shaped.1)
      rw [members?, read, Option.bind_some, Option.isSome_map]
      exact isSome_members? rest shaped.2

end

end TwinSchema.Document
