import TwinSchema.Document.Field
import TwinSchema.Json.Display

/-!
# The shape of schema documents

A decoded document is a schema document when it and every record inside it have
a type and fields of the right form. Fields are checked whatever the type says,
and unknown fields are ignored.
-/

namespace TwinSchema.Document

open Json

/-- One step into a decoded value. -/
inductive Place where
  | field (name : String)
  | item (index : Nat)
  deriving DecidableEq, Repr

/-- The written form of a place. -/
def Place.text : Place → String
  | .field name => "." ++ name
  | .item index => s!"[{index}]"

/-- The written form of the way to a value. The document is a dollar sign. -/
def placesText (places : List Place) : String :=
  places.foldl (fun text place => text ++ place.text) "$"

/-- A value that does not have the shape it should have, and the way to it. -/
structure Violation where
  places : List Place
  problem : String
  deriving DecidableEq, Repr

/-- The forms of values that a field may ask for. -/
inductive Form where
  | text
  | number
  | truth
  | null
  | list
  | record
  deriving DecidableEq, Repr

namespace Form

def name : Form → String
  | .text => "string"
  | .number => "number"
  | .truth => "boolean"
  | .null => "null"
  | .list => "array"
  | .record => "object"

def ofValue : Value → Form
  | .scalar .null => .null
  | .scalar (.bool _) => .truth
  | .scalar (.integer _) => .number
  | .scalar (.float _) => .number
  | .scalar (.text _) => .text
  | .list _ => .list
  | .record _ => .record

end Form

/-- The complaint about a value that is of none of the given forms. -/
def notOfForms (forms : List Form) (value : Value) : String :=
  displayValue value ++ " is not of type " ++
    ", ".intercalate (forms.map fun form => s!"'{form.name}'")

/-- A violation if a value is of none of the given forms. -/
def checkForm (forms : List Form) (places : List Place) (value : Value) :
    List Violation :=
  if Form.ofValue value ∈ forms then []
  else [⟨places, notOfForms forms value⟩]

theorem checkForm_eq_nil {forms : List Form} {places : List Place} {value : Value} :
    checkForm forms places value = [] ↔ Form.ofValue value ∈ forms := by
  rw [checkForm]
  split
  next found => simp [found]
  next missing => simp [missing]

/-- The forms of the values of an enumeration. -/
def choiceForms : List Form := [.text, .number]

def literalForms : List Form := [.text, .number, .truth, .null]

theorem ofValue_eq_text {value : Value} :
    Form.ofValue value = .text ↔ ∃ text, value = .text text := by
  cases value with
  | scalar scalar => cases scalar <;> simp [Form.ofValue, Value.text]
  | _ => simp [Form.ofValue, Value.text]

theorem ofValue_eq_null {value : Value} :
    Form.ofValue value = .null ↔ value = .null := by
  cases value with
  | scalar scalar => cases scalar <;> simp [Form.ofValue, Value.null]
  | _ => simp [Form.ofValue, Value.null]

theorem ofValue_eq_truth {value : Value} :
    Form.ofValue value = .truth ↔ ∃ flag, value = .bool flag := by
  cases value with
  | scalar scalar => cases scalar <;> simp [Form.ofValue, Value.bool]
  | _ => simp [Form.ofValue, Value.bool]

theorem ofValue_mem_literalForms {value : Value} :
    Form.ofValue value ∈ literalForms ↔ ∃ scalar, value = .scalar scalar := by
  cases value with
  | scalar scalar => cases scalar <;> simp [Form.ofValue, literalForms]
  | _ => simp [Form.ofValue, literalForms]

/-- The violations among the values of an enumeration from an index on. -/
def checkChoices (places : List Place) (index : Nat) :
    List Value → List Violation
  | [] => []
  | value :: rest =>
      checkForm choiceForms (places ++ [.item index]) value ++
        checkChoices places (index + 1) rest

/-- The violation of a record without a type. -/
def checkTyped (places : List Place) (fields : List (String × Value)) :
    List Violation :=
  if (fields.lookup "type").isSome then []
  else [⟨places, "'type' is a required property"⟩]

mutual

/-- The violations in a value that should describe a node. -/
def checkNode (places : List Place) : Value → List Violation
  | .record fields => checkTyped places fields ++ checkFields places fields
  | value => [⟨places, notOfForms [.record] value⟩]

def checkFields (places : List Place) :
    List (String × Value) → List Violation
  | [] => []
  | (name, value) :: rest =>
      let here := places ++ [.field name]
      (if name = "type" then checkForm [.text] here value
        else if name = "description" then checkForm [.text, .null] here value
        else if name = "nullable" ∨ name = "optional" then
          checkForm [.truth] here value
        else if name = "properties" then
          match value with
          | .record entries => checkProperties here entries
          | value => [⟨here, notOfForms [.record] value⟩]
        else if name = "items" then checkNode here value
        else if name ∈ choiceFields then
          match value with
          | .list values => checkChoices here 0 values
          | value => [⟨here, notOfForms [.list] value⟩]
        else if name ∈ memberFields then
          match value with
          | .list values => checkMembers here 0 values
          | value => [⟨here, notOfForms [.list] value⟩]
        else if name ∈ literalFields then checkForm literalForms here value
        else []) ++
        checkFields places rest

/-- The violations in the nodes of named properties. -/
def checkProperties (places : List Place) :
    List (String × Value) → List Violation
  | [] => []
  | (name, value) :: rest =>
      checkNode (places ++ [.field name]) value ++ checkProperties places rest

def checkMembers (places : List Place) (index : Nat) :
    List Value → List Violation
  | [] => []
  | value :: rest =>
      checkNode (places ++ [.item index]) value ++
        checkMembers places (index + 1) rest

end

theorem checkFields_append (places : List Place)
    (fields others : List (String × Value)) :
    checkFields places (fields ++ others) =
      checkFields places fields ++ checkFields places others := by
  induction fields with
  | nil => simp [checkFields]
  | cons field fields ih =>
      obtain ⟨name, value⟩ := field
      cases value <;> simp [checkFields, ih]

/-- A field of a record without violations is free of them on its own. -/
theorem checkFields_of_mem {places : List Place} {fields : List (String × Value)}
    {field : String × Value} (shaped : checkFields places fields = [])
    (member : field ∈ fields) : checkFields places [field] = [] := by
  obtain ⟨before, after, rfl⟩ := List.append_of_mem member
  rw [← List.singleton_append, checkFields_append, checkFields_append,
    List.append_eq_nil_iff, List.append_eq_nil_iff] at shaped
  exact shaped.2.1

def violations (document : Value) : List Violation :=
  checkNode [] document

/-- Whether one way comes after another of the same length: at the first
difference it has the later name or the higher index. -/
def comesAfter : List Place → List Place → Bool
  | .field left :: lefts, .field right :: rights =>
      if left = right then comesAfter lefts rights else right < left
  | .item left :: lefts, .item right :: rights =>
      if left = right then comesAfter lefts rights else right < left
  | _, _ => false

/-- Whether a violation is told rather than another: the one nearer to the root,
and of two equally near ones the later. -/
def Violation.outranks (violation other : Violation) : Bool :=
  violation.places.length < other.places.length ||
    (violation.places.length == other.places.length &&
      comesAfter violation.places other.places)

/-- The violation that is told for a document. -/
def foremost : List Violation → Option Violation
  | [] => none
  | violation :: rest =>
      match foremost rest with
      | none => some violation
      | some other =>
          if other.outranks violation then some other else some violation

theorem foremost_eq_none {violations : List Violation} :
    foremost violations = none ↔ violations = [] := by
  cases violations with
  | nil => exact ⟨fun _ => rfl, fun _ => rfl⟩
  | cons violation rest =>
      simp only [foremost, reduceCtorEq, iff_false]
      split
      · simp
      · split <;> simp

end TwinSchema.Document
