import TwinSchema.Document.Reader
import TwinSchema.Proofs.Node.Valid
import TwinSchema.Proofs.Relaxed.Reading

/-!
# Documents tell valid nodes

A value that a document can hold describes a valid node, so every document that
is read at all gives one.
-/

namespace TwinSchema.Document

open Json

theorem isProper_of_items? {value : Value} {items : List Value}
    (proper : value.isProper = true) (told : items? value = some items) :
    ∀ item ∈ items, item.isProper = true := by
  rw [items?.eq_def] at told
  split at told
  next => cases told; exact isProper_list.mp proper
  next =>
    cases told
    intro item member
    obtain ⟨field, -, rfl⟩ := List.mem_map.mp member
    rfl
  next =>
    cases told
    intro item member
    obtain ⟨char, -, rfl⟩ := List.mem_map.mp member
    rfl
  next =>
    split at told
    next => cases told; simp
    next => cases told

theorem isShort_of_readChoice {place : List String} {value : Value}
    {choice : Choice} (proper : value.isProper = true)
    (read : readChoice place value = .ok choice) :
    choice.toScalar.isShort = true := by
  rw [readChoice.eq_def] at read
  split at read
  next => cases read; rfl
  next => cases read; exact proper
  next => cases read; rfl
  next truth => cases read; cases truth <;> decide
  next => cases read

theorem isShort_of_readChoices {place : List String} {index : Nat}
    {values : List Value} {choices : List Choice}
    (proper : ∀ value ∈ values, value.isProper = true)
    (read : readChoices place index values = .ok choices) :
    (choices.all fun choice => choice.toScalar.isShort) = true := by
  induction values generalizing index choices with
  | nil => cases read; rfl
  | cons value rest ih =>
      rw [readChoices] at read
      obtain ⟨choice, others, first, later, rfl⟩ := both_eq_ok read
      rw [List.forall_mem_cons] at proper
      rw [List.all_cons, isShort_of_readChoice proper.1 first, ih proper.2 later]
      rfl

theorem isShort_of_choices? {fields : List (String × Value)} {choices : List Choice}
    (proper : ∀ field ∈ fields, field.2.isProper = true)
    (told : choices? fields = some choices) :
    (choices.all fun choice => choice.toScalar.isShort) = true := by
  rw [choices?] at told
  split at told
  next => cases told; rfl
  next value found =>
    obtain ⟨name, -, inside⟩ := exists_of_firstPresent found
    obtain ⟨items, listed, read⟩ := Option.bind_eq_some_iff.mp told
    cases accepted : readChoices [] 0 items with
    | error issues => rw [accepted] at read; cases read
    | ok others =>
        rw [accepted] at read
        cases read
        exact isShort_of_readChoices
          (isProper_of_items? (proper _ inside) listed) accepted

theorem isShort_of_literal? {fields : List (String × Value)} {literal : Scalar}
    (proper : ∀ field ∈ fields, field.2.isProper = true)
    (told : literal? fields = some literal) : literal.isShort = true := by
  rw [literal?] at told
  split at told
  next => cases told; rfl
  next value found =>
    obtain ⟨name, -, inside⟩ := exists_of_firstPresent found
    cases value with
    | scalar scalar => cases told; exact proper _ inside
    | _ => cases told

/-- What a record gives is valid. -/
structure Branches.Valid (branches : Branches) : Prop where
  properties : ∀ properties, branches.properties = some (some properties) →
    (Node.object {} properties).isValid = true
  items : ∀ items, branches.items = some (some items) → items.isValid = true
  members : ∀ entry ∈ branches.members, ∀ members, entry.2 = some members →
    areValidMembers members = true

theorem isValid_of_buildNode? {fields : List (String × Value)} {branches : Branches}
    {node : Node} (proper : ∀ field ∈ fields, field.2.isProper = true)
    (valid : branches.Valid) (told : buildNode? fields branches = some node) :
    node.isValid = true := by
  obtain ⟨kind, -, told⟩ := Option.bind_eq_some_iff.mp told
  obtain ⟨modifiers, -, told⟩ := Option.bind_eq_some_iff.mp told
  cases kind with
  | leaf kind => cases told; rfl
  | literal =>
      obtain ⟨value, given, rfl⟩ := Option.map_eq_some_iff.mp told
      exact isShort_of_literal? proper given
  | enumeration =>
      obtain ⟨choices, given, rfl⟩ := Option.map_eq_some_iff.mp told
      exact isShort_of_choices? proper given
  | array =>
      cases held : branches.items with
      | none => simp only [nodeOfKind?, held] at told; cases told; rfl
      | some items =>
          simp only [nodeOfKind?, held] at told
          obtain ⟨node, given, rfl⟩ := Option.map_eq_some_iff.mp told
          exact valid.items node (given ▸ held)
  | object =>
      obtain ⟨properties, given, rfl⟩ := Option.map_eq_some_iff.mp told
      cases held : branches.properties with
      | none => rw [held] at given; cases given; rfl
      | some others =>
          rw [held, Option.getD_some] at given
          exact valid.properties properties (given ▸ held)
  | union =>
      obtain ⟨members, given, rfl⟩ := Option.map_eq_some_iff.mp told
      cases held : firstPresent memberFields branches.members with
      | none => rw [held] at given; cases given; rfl
      | some others =>
          obtain ⟨name, -, inside⟩ := exists_of_firstPresent held
          rw [held, Option.getD_some] at given
          exact valid.members _ inside members given

theorem map_fst_of_properties? {fields : List (String × Value)}
    {properties : List (String × Node)} (told : properties? fields = some properties) :
    properties.map Prod.fst = fields.map Prod.fst := by
  induction fields generalizing properties with
  | nil => rw [properties?] at told; cases told; rfl
  | cons field fields ih =>
      obtain ⟨name, value⟩ := field
      rw [properties?] at told
      obtain ⟨node, -, told⟩ := Option.bind_eq_some_iff.mp told
      obtain ⟨others, later, rfl⟩ := Option.map_eq_some_iff.mp told
      rw [List.map_cons, List.map_cons, ih later]

mutual

theorem isValid_of_node? : (value : Value) → value.isProper = true →
    ∀ {node}, node? value = some node → node.isValid = true
  | .scalar _, _, _, told => by simp [node?] at told
  | .list _, _, _, told => by simp [node?] at told
  | .record fields, proper, node, told => by
      have held := proper
      rw [Value.isProper, Bool.and_eq_true] at held
      rw [node?] at told
      exact isValid_of_buildNode? (isProper_record.mp proper).2
        (valid_branches fields held.2) told

theorem valid_branches : (fields : List (String × Value)) →
    areProperFields fields = true → (branches fields).Valid
  | [], _ => by
      rw [branches]
      exact ⟨by simp, by simp, by simp⟩
  | (name, value) :: rest, proper => by
      rw [areProperFields, Bool.and_eq_true] at proper
      have others := valid_branches rest proper.2
      rcases branches_cons name value rest with
        ⟨-, same⟩ | ⟨-, same⟩ | ⟨-, same⟩ | same <;> rw [same]
      · refine ⟨?_, others.items, others.members⟩
        intro properties given
        cases value with
        | record entries =>
            have held := proper.1
            rw [Value.isProper, Bool.and_eq_true, decide_eq_true_eq] at held
            have told := Option.some.inj given
            rw [Node.isValid, Bool.and_eq_true, decide_eq_true_eq,
              map_fst_of_properties? told]
            exact ⟨held.1, areValid_of_properties? entries held.2 told⟩
        | _ => cases given
      · refine ⟨others.properties, ?_, others.members⟩
        intro items given
        exact isValid_of_node? value proper.1 (Option.some.inj given)
      · refine ⟨others.properties, others.items, ?_⟩
        intro entry member members given
        rcases List.mem_cons.mp member with rfl | later
        · cases value with
          | list values =>
              have held := proper.1
              rw [Value.isProper] at held
              exact areValid_of_members? values held given
          | scalar _ | record _ =>
              dsimp only at given
              rw [eq_nil_of_noMembers? given]
              rfl
        · exact others.members entry later members given
      · exact others

theorem areValid_of_properties? : (fields : List (String × Value)) →
    areProperFields fields = true → ∀ {properties},
      properties? fields = some properties → areValidProperties properties = true
  | [], _, _, told => by rw [properties?] at told; cases told; rfl
  | (name, value) :: rest, proper, _, told => by
      rw [areProperFields, Bool.and_eq_true] at proper
      rw [properties?] at told
      obtain ⟨node, first, told⟩ := Option.bind_eq_some_iff.mp told
      obtain ⟨others, later, rfl⟩ := Option.map_eq_some_iff.mp told
      rw [areValidProperties, isValid_of_node? value proper.1 first,
        areValid_of_properties? rest proper.2 later]
      rfl

theorem areValid_of_members? : (values : List Value) → areProper values = true →
    ∀ {members}, members? values = some members → areValidMembers members = true
  | [], _, _, told => by rw [members?] at told; cases told; rfl
  | value :: rest, proper, _, told => by
      rw [areProper, Bool.and_eq_true] at proper
      rw [members?] at told
      obtain ⟨node, first, told⟩ := Option.bind_eq_some_iff.mp told
      obtain ⟨others, later, rfl⟩ := Option.map_eq_some_iff.mp told
      rw [areValidMembers, isValid_of_node? value proper.1 first,
        areValid_of_members? rest proper.2 later]
      rfl

end

theorem isValid_of_read {text : List Char} {node : Node}
    (found : read text = .ok node) : node.isValid = true := by
  rw [read] at found
  split at found
  next => cases found
  next document decoded =>
    split at found
    next told =>
      cases found
      exact isValid_of_node? document (Relaxed.isProper_of_decode decoded)
        (ofValue_eq_ok_iff.mp told).2
    next => cases found

end TwinSchema.Document
