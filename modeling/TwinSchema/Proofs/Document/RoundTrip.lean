import TwinSchema.Document.Reader
import TwinSchema.Proofs.Document.Writing
import TwinSchema.Proofs.Relaxed.Reading

/-!
# Reading written documents

The record of a node has the shape of a schema document and is turned back into
the node, so the document that is written for a valid node is read as that node.
-/

namespace TwinSchema.Document

open Json Relaxed

/-- The fields of every record have the right form. -/
theorem checkFields_shared (places : List Place) (modifiers : Modifiers) :
    checkFields places (descriptionField modifiers) = [] ∧
      checkFields places (flagFields modifiers) = [] := by
  obtain ⟨description, nullable, optional⟩ := modifiers
  constructor
  · cases description <;>
      simp [descriptionField, checkFields, checkForm, Form.ofValue, Value.text]
  · cases nullable <;> cases optional <;>
      simp [flagFields, checkFields, checkForm, Form.ofValue, Value.bool]

theorem checkNode_nodeRecord (places : List Place) (kind : Kind)
    (modifiers : Modifiers) (body : List (String × Value)) :
    checkNode places (nodeRecord kind modifiers body) =
      checkFields places body := by
  obtain ⟨description, flags⟩ := checkFields_shared places modifiers
  have typed : checkFields places [("type", .text kind.name)] = [] := by
    simp [checkFields, checkForm, Form.ofValue, Value.text]
  rw [nodeRecord_eq, checkNode, checkTyped, ← List.singleton_append,
    checkFields_append, checkFields_append, checkFields_append, typed,
    description, flags]
  simp

theorem checkChoices_scalars (places : List Place) (index : Nat)
    (choices : List Choice) :
    checkChoices places index
      (choices.map fun choice => .scalar choice.toScalar) = [] := by
  induction choices generalizing index with
  | nil => rfl
  | cons choice choices ih =>
      rw [List.map_cons, checkChoices, ih]
      cases choice <;>
        simp [checkForm, Choice.toScalar, Form.ofValue, choiceForms]

mutual

/-- The record of a node has the right shape, wherever it stands. -/
theorem checkNode_ofNode (places : List Place) :
    (node : Node) → checkNode places (ofNode node) = []
  | .leaf modifiers kind => by
      rw [ofNode, checkNode_nodeRecord, checkFields]
  | .literal modifiers value => by
      rw [ofNode, checkNode_nodeRecord]
      cases value <;>
        simp [checkFields, checkForm, Form.ofValue, literalForms, literalFields,
          choiceFields, memberFields]
  | .enumeration modifiers choices => by
      rw [ofNode, checkNode_nodeRecord]
      simp [checkFields, choiceFields, checkChoices_scalars]
  | .array modifiers none => by rw [ofNode, checkNode_nodeRecord, checkFields]
  | .array modifiers (some items) => by
      rw [ofNode, checkNode_nodeRecord]
      simp [checkFields, checkNode_ofNode _ items]
  | .object modifiers properties => by
      rw [ofNode, checkNode_nodeRecord]
      simp [checkFields, checkProperties_ofProperties _ properties]
  | .union modifiers none => by
      rw [ofNode, checkNode_nodeRecord]
      simp [checkFields, choiceFields, memberFields, checkMembers]
  | .union modifiers (some members) => by
      rw [ofNode, checkNode_nodeRecord]
      simp [checkFields, choiceFields, memberFields,
        checkMembers_ofMembers _ _ members]

/-- The records of properties have the right shape. -/
theorem checkProperties_ofProperties (places : List Place) :
    (properties : List (String × Node)) →
      checkProperties places (ofProperties properties) = []
  | [] => by rw [ofProperties, checkProperties]
  | (name, node) :: rest => by
      rw [ofProperties, checkProperties, checkNode_ofNode _ node,
        checkProperties_ofProperties _ rest, List.append_nil]

/-- The records of members have the right shape. -/
theorem checkMembers_ofMembers (places : List Place) (index : Nat) :
    (members : List Node) → checkMembers places index (ofMembers members) = []
  | [] => by rw [ofMembers, checkMembers]
  | node :: rest => by
      rw [ofMembers, checkMembers, checkNode_ofNode _ node,
        checkMembers_ofMembers _ _ rest, List.append_nil]

end

section Fields

variable {body : List (String × Value)}

theorem lookup_own (own : body.map Prod.fst ∈ ownFields) (name : String)
    (shared : name ∈ ["type", "description", "nullable", "optional"]) :
    body.lookup name = none := by
  have apart : name ∉ body.map Prod.fst := by
    simp only [ownFields, List.mem_cons, List.not_mem_nil, or_false] at own shared
    rcases own with same | same | same | same | same | same <;> rw [same] <;>
      rcases shared with rfl | rfl | rfl | rfl <;> simp
  rw [List.lookup_eq_none_iff]
  intro field member
  rw [bne_iff_ne]
  rintro rfl
  exact apart (List.mem_map_of_mem member)

theorem kind?_record (kind : Kind) (rest : List (String × Value)) :
    kind? (("type", .text kind.name) :: rest) = some kind := by
  simp [kind?, Value.text, Value.text?, Kind.ofName?_name]

theorem modifiers?_record (kind : Kind) (modifiers : Modifiers)
    (own : body.map Prod.fst ∈ ownFields) :
    modifiers? (("type", .text kind.name) :: (descriptionField modifiers ++
      (body ++ flagFields modifiers))) = some modifiers := by
  have description := lookup_own own "description" (by simp)
  have nullable := lookup_own own "nullable" (by simp)
  have optional := lookup_own own "optional" (by simp)
  obtain ⟨text, null, absent⟩ := modifiers
  simp only [modifiers?, optionalField, List.lookup_cons, List.lookup_append,
    description, nullable, optional]
  cases text <;> cases null <;> cases absent <;> rfl

theorem lookup_record (kind : Kind) (modifiers : Modifiers) {name : String}
    (different : name ∉ ["type", "description", "nullable", "optional"]) :
    (("type", .text kind.name) :: (descriptionField modifiers ++
      (body ++ flagFields modifiers)) : List (String × Value)).lookup name =
      body.lookup name := by
  simp only [List.mem_cons, List.not_mem_nil, or_false, not_or] at different
  obtain ⟨text, null, absent⟩ := modifiers
  obtain ⟨notType, notDescription, notNullable, notOptional⟩ := different
  have apart : ∀ other : String, name ≠ other → (name == other) = false :=
    fun other unequal => by simpa using unequal
  simp only [List.lookup_cons, List.lookup_append, apart _ notType]
  cases text <;> cases null <;> cases absent <;>
    simp [descriptionField, flagFields, List.lookup_cons, apart _ notDescription,
      apart _ notNullable, apart _ notOptional]

/-- A field of every record holds no nodes. -/
theorem branches_shared {name : String}
    (shared : name ∈ ["type", "description", "nullable", "optional"])
    (value : Value) (rest : List (String × Value)) :
    branches ((name, value) :: rest) = branches rest := by
  simp only [List.mem_cons, List.not_mem_nil, or_false] at shared
  rcases shared with rfl | rfl | rfl | rfl <;> simp [branches, memberFields]

theorem branches_flagFields (body : List (String × Value))
    (modifiers : Modifiers) :
    branches (body ++ flagFields modifiers) = branches body := by
  induction body with
  | nil =>
      obtain ⟨description, nullable, optional⟩ := modifiers
      cases nullable <;> cases optional <;>
        simp [flagFields, branches_shared]
  | cons field body ih =>
      obtain ⟨name, value⟩ := field
      cases value <;> simp [branches, ih]

theorem branches_record (kind : Kind) (modifiers : Modifiers)
    (body : List (String × Value)) :
    branches (("type", .text kind.name) :: (descriptionField modifiers ++
      (body ++ flagFields modifiers))) = branches body := by
  rw [branches_shared (by simp)]
  rw [descriptionField]
  cases modifiers.description with
  | none => exact branches_flagFields body modifiers
  | some description =>
      exact (branches_shared (by simp) _ _).trans
        (branches_flagFields body modifiers)

end Fields

theorem node?_nodeRecord (kind : Kind) (modifiers : Modifiers)
    {body : List (String × Value)} (own : body.map Prod.fst ∈ ownFields) :
    node? (nodeRecord kind modifiers body) =
      nodeOfKind? kind modifiers body (branches body) := by
  have found : ∀ names : List String,
      (∀ name ∈ names, name ∉ ["type", "description", "nullable", "optional"]) →
      firstPresent names (("type", Value.text kind.name) ::
        (descriptionField modifiers ++ (body ++ flagFields modifiers))) =
        firstPresent names body := by
    intro names different
    unfold firstPresent
    induction names with
    | nil => rfl
    | cons name names ih =>
        rw [List.findSome?_cons, List.findSome?_cons,
          lookup_record kind modifiers (different name List.mem_cons_self),
          ih fun other member => different other (List.mem_cons_of_mem name member)]
  rw [nodeRecord_eq, node?, branches_record, buildNode?,
    modifiers?_record kind modifiers own, kind?_record]
  simp only [Option.bind_eq_bind, Option.bind_some, nodeOfKind?, literal?, choices?,
    found literalFields (by decide), found choiceFields (by decide)]

/-- The choices of an enumeration are read from their values. -/
theorem readChoices_scalars (place : List String) (index : Nat)
    (choices : List Choice) :
    readChoices place index (choices.map fun choice => .scalar choice.toScalar) =
      .ok choices := by
  induction choices generalizing index with
  | nil => rfl
  | cons choice choices ih =>
      rw [List.map_cons, readChoices, ih]
      cases choice <;> rfl

mutual

theorem node?_ofNode : (node : Node) → node.isValid = true →
    node? (ofNode node) = some node
  | .leaf modifiers kind, _ => by
      rw [ofNode, node?_nodeRecord _ _ (by simp [ownFields])]
      rfl
  | .literal modifiers value, _ => by
      rw [ofNode, node?_nodeRecord _ _ (by simp [ownFields])]
      rfl
  | .enumeration modifiers none, valid => by
      rw [Node.isValid] at valid
      cases valid
  | .enumeration modifiers (some choices), _ => by
      rw [ofNode, node?_nodeRecord _ _ (by simp [ownFields])]
      simp [nodeOfKind?, choices?, firstPresent, choiceFields, items?,
        readChoices_scalars, Except.toOption]
  | .array modifiers none, _ => by
      rw [ofNode, node?_nodeRecord _ _ (by simp [ownFields])]
      simp [nodeOfKind?, branches]
  | .array modifiers (some items), valid => by
      rw [Node.isValid] at valid
      rw [ofNode, node?_nodeRecord _ _ (by simp [ownFields])]
      simp [nodeOfKind?, branches, node?_ofNode items valid]
  | .object modifiers properties, valid => by
      rw [Node.isValid, Bool.and_eq_true] at valid
      rw [ofNode, node?_nodeRecord _ _ (by simp [ownFields])]
      simp [nodeOfKind?, branches, properties?_ofProperties properties valid.2]
  | .union modifiers none, valid => by
      rw [Node.isValid] at valid
      cases valid
  | .union modifiers (some members), valid => by
      rw [Node.isValid] at valid
      rw [ofNode, node?_nodeRecord _ _ (by simp [ownFields])]
      simp [nodeOfKind?, branches, firstPresent, memberFields,
        members?_ofMembers members valid]

theorem properties?_ofProperties : (properties : List (String × Node)) →
    areValidProperties properties = true →
    properties? (ofProperties properties) = some properties
  | [], _ => by rw [ofProperties, properties?]
  | (name, node) :: rest, valid => by
      rw [areValidProperties, Bool.and_eq_true] at valid
      rw [ofProperties, properties?, node?_ofNode node valid.1,
        properties?_ofProperties rest valid.2]
      rfl

theorem members?_ofMembers : (members : List Node) →
    areValidMembers members = true → members? (ofMembers members) = some members
  | [], _ => by rw [ofMembers, members?]
  | node :: rest, valid => by
      rw [areValidMembers, Bool.and_eq_true] at valid
      rw [ofMembers, members?, node?_ofNode node valid.1,
        members?_ofMembers rest valid.2]
      rfl

end

theorem areProperFields_append (fields others : List (String × Value)) :
    areProperFields (fields ++ others) =
      (areProperFields fields && areProperFields others) := by
  induction fields with
  | nil => rfl
  | cons field fields ih =>
      rw [List.cons_append, areProperFields, areProperFields, ih, Bool.and_assoc]

/-- A document can hold a record if it can hold its own fields. -/
theorem isProper_nodeRecord (kind : Kind) (modifiers : Modifiers)
    {body : List (String × Value)} (own : body.map Prod.fst ∈ ownFields)
    (proper : areProperFields body = true) :
    (nodeRecord kind modifiers body).isProper = true := by
  have description : areProperFields (descriptionField modifiers) = true := by
    rw [descriptionField]
    cases modifiers.description <;> rfl
  have flags : areProperFields (flagFields modifiers) = true := by
    obtain ⟨text, nullable, optional⟩ := modifiers
    cases nullable <;> cases optional <;> rfl
  rw [nodeRecord_eq, Value.isProper, areProperFields, areProperFields_append,
    areProperFields_append, description, proper, flags,
    decide_eq_true (distinct_fields kind modifiers own)]
  rfl

theorem areProper_scalars {choices : List Choice}
    (short : (choices.all fun choice => choice.toScalar.isShort) = true) :
    areProper (choices.map fun choice => .scalar choice.toScalar) = true := by
  induction choices with
  | nil => rfl
  | cons choice choices ih =>
      rw [List.all_cons, Bool.and_eq_true] at short
      rw [List.map_cons, areProper, Value.isProper, short.1, ih short.2]
      rfl

mutual

theorem isProper_ofNode : (node : Node) → node.isValid = true →
    (ofNode node).isProper = true
  | .leaf modifiers kind, _ => by
      rw [ofNode]
      exact isProper_nodeRecord _ _ (by simp [ownFields]) rfl
  | .literal modifiers value, valid => by
      rw [Node.isValid] at valid
      rw [ofNode]
      exact isProper_nodeRecord _ _ (by simp [ownFields])
        (by simp [areProperFields, Value.isProper, valid])
  | .enumeration modifiers none, valid => by
      rw [Node.isValid] at valid
      cases valid
  | .enumeration modifiers (some choices), valid => by
      rw [Node.isValid] at valid
      rw [ofNode]
      exact isProper_nodeRecord _ _ (by simp [ownFields])
        (by simp [areProperFields, Value.isProper, areProper_scalars valid])
  | .array modifiers none, _ => by
      rw [ofNode]
      exact isProper_nodeRecord _ _ (by simp [ownFields]) rfl
  | .array modifiers (some items), valid => by
      rw [Node.isValid] at valid
      rw [ofNode]
      exact isProper_nodeRecord _ _ (by simp [ownFields])
        (by simp [areProperFields, isProper_ofNode items valid])
  | .object modifiers properties, valid => by
      rw [Node.isValid, Bool.and_eq_true, decide_eq_true_eq] at valid
      rw [ofNode]
      exact isProper_nodeRecord _ _ (by simp [ownFields])
        (by simp [areProperFields, Value.isProper, map_fst_ofProperties, valid.1,
          areProper_ofProperties properties valid.2])
  | .union modifiers none, valid => by
      rw [Node.isValid] at valid
      cases valid
  | .union modifiers (some members), valid => by
      rw [Node.isValid] at valid
      rw [ofNode]
      exact isProper_nodeRecord _ _ (by simp [ownFields])
        (by simp [areProperFields, Value.isProper,
          areProper_ofMembers members valid])

theorem areProper_ofProperties : (properties : List (String × Node)) →
    areValidProperties properties = true →
    areProperFields (ofProperties properties) = true
  | [], _ => rfl
  | (name, node) :: rest, valid => by
      rw [areValidProperties, Bool.and_eq_true] at valid
      rw [ofProperties, areProperFields, isProper_ofNode node valid.1,
        areProper_ofProperties rest valid.2]
      rfl

theorem areProper_ofMembers : (members : List Node) →
    areValidMembers members = true → areProper (ofMembers members) = true
  | [], _ => rfl
  | node :: rest, valid => by
      rw [areValidMembers, Bool.and_eq_true] at valid
      rw [ofMembers, areProper, isProper_ofNode node valid.1,
        areProper_ofMembers rest valid.2]
      rfl

end

theorem spells_write (comments : Bool) (step : Int) {node : Node}
    (valid : node.isValid = true) :
    Spells (write comments step node) (ofNode node) := by
  cases comments with
  | true => exact spells_commentedNode step 0 node valid
  | false => exact spells_writeValue step 0 _ (isProper_ofNode node valid)

/-- A text that spells the record of a valid node is read as the node. -/
theorem read_of_spells {text : List Char} {node : Node}
    (spelled : Spells text (ofNode node)) (valid : node.isValid = true) :
    read text = .ok node := by
  have told : ofValue (ofNode node) = .ok node :=
    ofValue_eq_ok_iff.mpr ⟨checkNode_ofNode [] node, node?_ofNode node valid⟩
  rw [read, decode_of_spells spelled]
  simp only [told]

/-- The document that is written for a valid node, with or without comments and
however it is indented, is read as the node. -/
theorem read_write (comments : Bool) (step : Int) {node : Node}
    (valid : node.isValid = true) :
    read (write comments step node) = .ok node :=
  read_of_spells (spells_write comments step valid) valid

/-- A record with a commented member and values of every form is read back. -/
theorem read_write_mixed :
    let node : Node := .object { description := some "a // \"b\"" }
      [("x, \x7d", .enumeration { nullable := true }
        (some [.integer 1, .float (.infinite true), .text "/* '"])),
        ("", .union { description := some "two\nlines" }
          (some [.literal {} (.bool true), .array {} none]))]
    node.isValid = true ∧ read (write true 2 node) = .ok node :=
  ⟨by decide, read_write true 2 (by decide)⟩

end TwinSchema.Document
