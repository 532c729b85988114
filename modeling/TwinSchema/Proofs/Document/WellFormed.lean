import Mathlib.Tactic.SplitIfs
import TwinSchema.Document.Shape
import TwinSchema.Proofs.Fields
import TwinSchema.Proofs.Json.Reading

/-!
# Well-formed documents

What a schema document is, told by the fields of its records and nothing else.
The check of a document finds no violation exactly when the document is
well-formed.
-/

namespace TwinSchema.Document

open Json

/-- Whether a value may be one of the values of an enumeration: a text or a
number. -/
def IsChoice : Value → Prop
  | .scalar (.text _) | .scalar (.integer _) | .scalar (.float _) => True
  | _ => False

/-- A well-formed document: a record with a type whose fields, as far as they are
present, have the right form at every depth. -/
inductive WellFormed : Value → Prop where
  | record {fields : List (String × Value)}
      (type : ∃ kind, fields.lookup "type" = some (.text kind))
      (description : ∀ value, fields.lookup "description" = some value →
        value = .null ∨ ∃ text, value = .text text)
      (flags : ∀ name ∈ ["nullable", "optional"], ∀ value,
        fields.lookup name = some value → ∃ flag, value = .bool flag)
      (properties : ∀ value, fields.lookup "properties" = some value →
        ∃ entries, value = .record entries)
      (eachProperty : ∀ entries, fields.lookup "properties" = some (.record entries) →
        ∀ entry ∈ entries, WellFormed entry.2)
      (items : ∀ value, fields.lookup "items" = some value → WellFormed value)
      (choices : ∀ name ∈ ["enum", "enumValues"], ∀ value,
        fields.lookup name = some value →
          ∃ values, value = .list values ∧ ∀ item ∈ values, IsChoice item)
      (members : ∀ name ∈ ["oneOf", "unionMembers", "unionTypes"], ∀ value,
        fields.lookup name = some value → ∃ values, value = .list values)
      (eachMember : ∀ name ∈ ["oneOf", "unionMembers", "unionTypes"], ∀ values,
        fields.lookup name = some (.list values) → ∀ item ∈ values, WellFormed item)
      (literals : ∀ name ∈ ["const", "literalValue", "literal"], ∀ value,
        fields.lookup name = some value → ∃ scalar, value = .scalar scalar) :
      WellFormed (.record fields)

/-- Whether a field has the form that its name asks for. -/
structure Fits (name : String) (value : Value) : Prop where
  type : name = "type" → ∃ kind, value = .text kind
  description : name = "description" → value = .null ∨ ∃ text, value = .text text
  flags : name ∈ ["nullable", "optional"] → ∃ flag, value = .bool flag
  properties : name = "properties" →
    ∃ entries, value = .record entries ∧ ∀ entry ∈ entries, WellFormed entry.2
  items : name = "items" → WellFormed value
  choices : name ∈ choiceFields →
    ∃ values, value = .list values ∧ ∀ item ∈ values, IsChoice item
  members : name ∈ memberFields →
    ∃ values, value = .list values ∧ ∀ item ∈ values, WellFormed item
  literals : name ∈ literalFields → ∃ scalar, value = .scalar scalar

theorem fits_iff {name : String} {value : Value} :
    Fits name value ↔
      (name = "type" → ∃ kind, value = .text kind) ∧
      (name = "description" → value = .null ∨ ∃ text, value = .text text) ∧
      (name ∈ ["nullable", "optional"] → ∃ flag, value = .bool flag) ∧
      (name = "properties" →
        ∃ entries, value = .record entries ∧ ∀ entry ∈ entries, WellFormed entry.2) ∧
      (name = "items" → WellFormed value) ∧
      (name ∈ choiceFields →
        ∃ values, value = .list values ∧ ∀ item ∈ values, IsChoice item) ∧
      (name ∈ memberFields →
        ∃ values, value = .list values ∧ ∀ item ∈ values, WellFormed item) ∧
      (name ∈ literalFields → ∃ scalar, value = .scalar scalar) := by
  constructor
  · rintro ⟨type, description, flags, properties, items, choices, members, literals⟩
    exact ⟨type, description, flags, properties, items, choices, members, literals⟩
  · rintro ⟨type, description, flags, properties, items, choices, members, literals⟩
    exact ⟨type, description, flags, properties, items, choices, members, literals⟩

theorem fits_type {value : Value} : Fits "type" value ↔ ∃ kind, value = .text kind := by
  simp [fits_iff, choiceFields, memberFields, literalFields]

theorem fits_description {value : Value} :
    Fits "description" value ↔ value = .null ∨ ∃ text, value = .text text := by
  simp [fits_iff, choiceFields, memberFields, literalFields]

theorem fits_flag {name : String} {value : Value}
    (flag : name = "nullable" ∨ name = "optional") :
    Fits name value ↔ ∃ flag, value = .bool flag := by
  rcases flag with rfl | rfl <;>
    simp [fits_iff, choiceFields, memberFields, literalFields]

theorem fits_properties {value : Value} :
    Fits "properties" value ↔
      ∃ entries, value = .record entries ∧ ∀ entry ∈ entries, WellFormed entry.2 := by
  simp [fits_iff, choiceFields, memberFields, literalFields]

theorem fits_items {value : Value} : Fits "items" value ↔ WellFormed value := by
  simp [fits_iff, choiceFields, memberFields, literalFields]

theorem fits_choices {name : String} {value : Value} (choice : name ∈ choiceFields) :
    Fits name value ↔ ∃ values, value = .list values ∧ ∀ item ∈ values, IsChoice item := by
  simp only [choiceFields, List.mem_cons, List.not_mem_nil, or_false] at choice
  rcases choice with rfl | rfl <;>
    simp [fits_iff, choiceFields, memberFields, literalFields]

theorem fits_members {name : String} {value : Value} (union : name ∈ memberFields) :
    Fits name value ↔
      ∃ values, value = .list values ∧ ∀ item ∈ values, WellFormed item := by
  simp only [memberFields, List.mem_cons, List.not_mem_nil, or_false] at union
  rcases union with rfl | rfl | rfl <;>
    simp [fits_iff, choiceFields, memberFields, literalFields]

theorem fits_literal {name : String} {value : Value} (literal : name ∈ literalFields) :
    Fits name value ↔ ∃ scalar, value = .scalar scalar := by
  simp only [literalFields, List.mem_cons, List.not_mem_nil, or_false] at literal
  rcases literal with rfl | rfl | rfl <;>
    simp [fits_iff, choiceFields, memberFields, literalFields]

/-- A record is well-formed when it has a type and every field of it fits. -/
theorem wellFormed_record {fields : List (String × Value)}
    (distinct : (fields.map Prod.fst).Nodup) :
    WellFormed (.record fields) ↔
      (fields.lookup "type").isSome = true ∧ ∀ field ∈ fields, Fits field.1 field.2 := by
  constructor
  · rintro ⟨type, description, flags, properties, eachProperty, items, choices, members,
      eachMember, literals⟩
    obtain ⟨kind, typed⟩ := type
    refine ⟨by rw [typed]; rfl, ?_⟩
    rintro ⟨name, value⟩ member
    have found := (lookup_iff_mem distinct).mpr member
    constructor
    · rintro rfl
      exact ⟨kind, Option.some.inj (found.symm.trans typed)⟩
    · rintro rfl
      exact description value found
    · exact fun flag => flags name flag value found
    · rintro rfl
      obtain ⟨entries, rfl⟩ := properties value found
      exact ⟨entries, rfl, eachProperty entries found⟩
    · rintro rfl
      exact items value found
    · exact fun choice => choices name choice value found
    · intro union
      obtain ⟨values, rfl⟩ := members name union value found
      exact ⟨values, rfl, eachMember name union values found⟩
    · exact fun literal => literals name literal value found
  · rintro ⟨typed, fits⟩
    have fit {name : String} {value : Value} (found : fields.lookup name = some value) :
        Fits name value :=
      fits (name, value) ((lookup_iff_mem distinct).mp found)
    constructor
    · obtain ⟨value, found⟩ := Option.isSome_iff_exists.mp typed
      obtain ⟨kind, rfl⟩ := (fit found).type rfl
      exact ⟨kind, found⟩
    · exact fun value found => (fit found).description rfl
    · exact fun name flag value found => (fit found).flags flag
    · intro value found
      obtain ⟨entries, same, -⟩ := (fit found).properties rfl
      exact ⟨entries, same⟩
    · intro entries found
      obtain ⟨others, same, each⟩ := (fit found).properties rfl
      cases same
      exact each
    · exact fun value found => (fit found).items rfl
    · exact fun name choice value found => (fit found).choices choice
    · intro name union value found
      obtain ⟨values, same, -⟩ := (fit found).members union
      exact ⟨values, same⟩
    · intro name union values found
      obtain ⟨others, same, each⟩ := (fit found).members union
      cases same
      exact each
    · exact fun name literal value found => (fit found).literals literal

theorem ofValue_mem_choiceForms {value : Value} :
    Form.ofValue value ∈ choiceForms ↔ IsChoice value := by
  cases value with
  | scalar scalar => cases scalar <;> simp [Form.ofValue, choiceForms, IsChoice]
  | _ => simp [Form.ofValue, choiceForms, IsChoice]

theorem checkChoices_eq_nil {places : List Place} {index : Nat} {values : List Value} :
    checkChoices places index values = [] ↔ ∀ item ∈ values, IsChoice item := by
  induction values generalizing index with
  | nil => simp [checkChoices]
  | cons value values ih =>
      rw [checkChoices, List.append_eq_nil_iff, List.forall_mem_cons, checkForm_eq_nil,
        ofValue_mem_choiceForms, ih]

mutual

/-- A value that should describe a node has no violations exactly when it is
well-formed. -/
theorem checkNode_eq_nil : (value : Value) → value.isProper = true →
    ∀ places, checkNode places value = [] ↔ WellFormed value
  | .scalar value, _ => by
      intro places
      rw [checkNode]
      · exact ⟨fun none => (by cases none), fun formed => (by cases formed)⟩
      · simp
  | .list values, _ => by
      intro places
      rw [checkNode]
      · exact ⟨fun none => (by cases none), fun formed => (by cases formed)⟩
      · simp
  | .record fields, proper => by
      intro places
      rw [Value.isProper, Bool.and_eq_true, decide_eq_true_eq] at proper
      rw [checkNode, List.append_eq_nil_iff, checkFields_eq_nil fields proper.2,
        wellFormed_record proper.1, checkTyped]
      split
      next typed => simp [typed]
      next missing => simp [missing]

theorem checkFields_eq_nil : (fields : List (String × Value)) →
    areProperFields fields = true → ∀ places,
    checkFields places fields = [] ↔ ∀ field ∈ fields, Fits field.1 field.2
  | [], _ => by simp [checkFields]
  | (name, value) :: rest, proper => by
      intro places
      rw [areProperFields, Bool.and_eq_true] at proper
      rw [checkFields.eq_def]
      simp only [List.append_eq_nil_iff, List.forall_mem_cons,
        checkFields_eq_nil rest proper.2]
      refine and_congr ?_ Iff.rfl
      split_ifs with type description flag properties items choice union literal
      · rw [type, fits_type, checkForm_eq_nil, List.mem_singleton, ofValue_eq_text]
      · rw [description, fits_description, checkForm_eq_nil, List.mem_cons,
          List.mem_singleton, ofValue_eq_text, ofValue_eq_null, or_comm]
      · rw [fits_flag flag, checkForm_eq_nil, List.mem_singleton, ofValue_eq_truth]
      · rw [properties, fits_properties]
        cases value with
        | record entries =>
            have held := proper.1
            rw [Value.isProper, Bool.and_eq_true] at held
            simp [checkProperties_eq_nil entries held.2]
        | _ => simp
      · rw [items, fits_items, checkNode_eq_nil value proper.1]
      · rw [fits_choices choice]
        cases value <;> simp [checkChoices_eq_nil]
      · rw [fits_members union]
        cases value with
        | list values =>
            have held := proper.1
            rw [Value.isProper] at held
            simp [checkMembers_eq_nil values held]
        | _ => simp
      · rw [fits_literal literal, checkForm_eq_nil, ofValue_mem_literalForms]
      · simp_all [fits_iff]

theorem checkProperties_eq_nil : (entries : List (String × Value)) →
    areProperFields entries = true → ∀ places,
    checkProperties places entries = [] ↔ ∀ entry ∈ entries, WellFormed entry.2
  | [], _ => by simp [checkProperties]
  | (name, value) :: rest, proper => by
      intro places
      rw [areProperFields, Bool.and_eq_true] at proper
      rw [checkProperties, List.append_eq_nil_iff, List.forall_mem_cons,
        checkNode_eq_nil value proper.1, checkProperties_eq_nil rest proper.2]

theorem checkMembers_eq_nil : (values : List Value) → areProper values = true →
    ∀ places index,
    checkMembers places index values = [] ↔ ∀ item ∈ values, WellFormed item
  | [], _ => by simp [checkMembers]
  | value :: rest, proper => by
      intro places index
      rw [areProper, Bool.and_eq_true] at proper
      rw [checkMembers, List.append_eq_nil_iff, List.forall_mem_cons,
        checkNode_eq_nil value proper.1, checkMembers_eq_nil rest proper.2]

end

end TwinSchema.Document
