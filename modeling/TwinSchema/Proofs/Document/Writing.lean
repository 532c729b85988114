import TwinSchema.Document.Writer
import TwinSchema.Proofs.Node.Valid
import TwinSchema.Proofs.Relaxed.Writing

/-!
# Written schema documents

The document that is written for a node, with or without comments, spells the
record of that node.
-/

namespace TwinSchema.Document

open Json Relaxed
open Text (lineBreak)

theorem breaksLine_of_mem_lines (text : List Char) :
    ∀ line ∈ Text.lines text, ∀ char ∈ line, Text.breaksLine char = false := by
  fun_induction Text.lines text with
  | case1 => simp
  | case2 rest ih =>
      intro line member
      rcases List.mem_cons.mp member with rfl | inside
      · simp
      · exact ih line inside
  | case3 char rest notPair ends ih =>
      intro line member
      rcases List.mem_cons.mp member with rfl | inside
      · simp
      · exact ih line inside
  | case4 => simp_all
  | case5 char rest notPair keeps line others same ih =>
      rw [same] at ih
      have first := ih line List.mem_cons_self
      have more := fun next member => ih next (List.mem_cons_of_mem line member)
      intro next member
      rcases List.mem_cons.mp member with rfl | inside
      · exact List.forall_mem_cons.mpr ⟨by simpa using keeps, first⟩
      · exact more next inside

theorem commentText_stays (description : String) :
    ∀ char ∈ ' ' :: commentText description, char ≠ '\r' ∧ char ≠ '\n' := by
  have kept : ∀ line ∈ Text.lines description.toList, ∀ char ∈ line,
      char ≠ '\r' ∧ char ≠ '\n' := by
    intro line member char inside
    have breaks := breaksLine_of_mem_lines _ line member char inside
    constructor <;>
    · rintro rfl
      cases breaks
  intro char member
  rcases List.mem_cons.mp member with rfl | inside
  · decide
  · rw [commentText] at inside
    cases lines : Text.lines description.toList with
    | nil => simp [lines, List.intercalate] at inside
    | cons first others =>
        rw [lines] at kept inside
        rw [intercalate_cons, List.mem_append, List.mem_flatMap] at inside
        rcases inside with here | ⟨line, later, within⟩
        · exact kept first List.mem_cons_self char here
        · rcases List.mem_append.mp within with blank | there
          · rw [List.mem_singleton.mp blank]
            decide
          · exact kept line (List.mem_cons_of_mem first later) char there

theorem exists_commentGap (step : Int) (level : Nat)
    (description : Option String) :
    ∃ gap : Gap, gap.text =
      commentLine step level description ++ lineBreak step level := by
  cases description with
  | none => exact ⟨breakGap step level, text_breakGap step level⟩
  | some description =>
      by_cases empty : description.isEmpty = true
      · refine ⟨breakGap step level, ?_⟩
        rw [text_breakGap, commentLine, if_pos empty, List.nil_append]
      · have separate : ∀ char ∈ List.replicate (step * level).toNat ' ',
            isSeparator char = true := by
          intro char member
          rw [List.eq_of_mem_replicate member]
          rfl
        refine ⟨breakGap step level ++
          .line (' ' :: commentText description) '\n'
              (commentText_stays description) (.inr rfl) ::
            Gap.ofBlanks _ separate, ?_⟩
        rw [commentLine, if_neg empty, Gap.text_append, Gap.text_cons,
          text_breakGap, Gap.text_ofBlanks]
        simp [Filler.text, lineBreak]

/-- The fields that a record may have besides those of every record. -/
def ownFields : List (List String) :=
  [[], ["const"], ["enum"], ["items"], ["properties"], ["oneOf"]]

def descriptionField (modifiers : Modifiers) : List (String × Value) :=
  match modifiers.description with
  | some description => [("description", .text description)]
  | none => []

def flagFields (modifiers : Modifiers) : List (String × Value) :=
  (if modifiers.nullable then [("nullable", .bool true)] else []) ++
    (if modifiers.optional then [("optional", .bool true)] else [])

theorem nodeRecord_eq (kind : Kind) (modifiers : Modifiers)
    (body : List (String × Value)) :
    nodeRecord kind modifiers body =
      .record (("type", .text kind.name) :: (descriptionField modifiers ++
        (body ++ flagFields modifiers))) := by
  obtain ⟨description, nullable, optional⟩ := modifiers
  cases description <;> simp [nodeRecord, descriptionField, flagFields]

/-- No two fields of a record have the same name. -/
theorem distinct_fields (kind : Kind) (modifiers : Modifiers)
    {body : List (String × Value)} (own : body.map Prod.fst ∈ ownFields) :
    ((("type", .text kind.name) :: (descriptionField modifiers ++
      (body ++ flagFields modifiers)) : List (String × Value)).map
        Prod.fst).Nodup := by
  obtain ⟨description, nullable, optional⟩ := modifiers
  simp only [List.map_cons, List.map_append]
  simp only [ownFields, List.mem_cons, List.not_mem_nil, or_false] at own
  rcases own with same | same | same | same | same | same <;> rw [same] <;>
    cases description <;> cases nullable <;> cases optional <;>
    simp [descriptionField, flagFields]

theorem spells_commentedRecord (step : Int) (level : Nat) (kind : Kind)
    (modifiers : Modifiers) {texts : List (List Char)}
    {body : List (String × Value)} (spelled : SpellsFields texts body)
    (own : body.map Prod.fst ∈ ownFields) :
    Spells (commentedRecord step level kind modifiers texts)
      (nodeRecord kind modifiers body) := by
  have flag : ∀ (set : Bool) (name : String), SpellsFields
      (if set then [writtenField name "true".toList] else [])
      (if set then [(name, .bool true)] else []) := by
    intro set name
    cases set with
    | true => exact spellsFields_cons _ (spells_word .true) spellsFields_nil
    | false => exact spellsFields_nil
  have description : SpellsFields
      (match modifiers.description with
        | some description =>
            [writtenField "description" (writeText description)]
        | none => [])
      (descriptionField modifiers) := by
    rw [descriptionField]
    cases modifiers.description with
    | none => exact spellsFields_nil
    | some description =>
        exact spellsFields_cons _ (spells_writeText description) spellsFields_nil
  have fields := spellsFields_cons "type" (spells_writeText kind.name)
    (spellsFields_append description (spellsFields_append spelled
      (spellsFields_append (flag modifiers.nullable "nullable")
        (flag modifiers.optional "optional"))))
  obtain ⟨gap, written⟩ :=
    exists_commentGap step (level + 1) modifiers.description
  have record := spells_record gap (breakGap step (level + 1))
    (breakGap step level) fields (distinct_fields kind modifiers own)
  rw [nodeRecord_eq]
  rw [written, text_breakGap, text_breakGap] at record
  cases described : modifiers.description <;>
    simpa [commentedRecord, spaced, writtenField, described, flagFields]
      using record

/-- Properties keep their names. -/
theorem map_fst_ofProperties (properties : List (String × Node)) :
    (ofProperties properties).map Prod.fst = properties.map Prod.fst := by
  induction properties with
  | nil => rfl
  | cons property rest ih => rw [ofProperties, List.map_cons, ih, List.map_cons]

theorem spellsItems_choices {choices : List Choice}
    (short : (choices.all fun choice => choice.toScalar.isShort) = true) :
    SpellsItems (choices.map fun choice => writeScalar choice.toScalar)
      (choices.map fun choice => .scalar choice.toScalar) := by
  induction choices with
  | nil => exact spellsItems_nil
  | cons choice choices ih =>
      rw [List.all_cons, Bool.and_eq_true] at short
      exact spellsItems_cons (spells_writeScalar short.1) (ih short.2)

mutual

theorem spells_commentedNode (step : Int) (level : Nat) :
    (node : Node) → node.isValid = true →
      Spells (commentedNode step level node) (ofNode node)
  | .leaf modifiers kind, _ => by
      rw [commentedNode, ofNode]
      exact spells_commentedRecord _ _ _ _ spellsFields_nil (by simp [ownFields])
  | .literal modifiers value, valid => by
      rw [Node.isValid] at valid
      rw [commentedNode, ofNode]
      exact spells_commentedRecord _ _ _ _
        (spellsFields_cons _ (spells_writeScalar valid) spellsFields_nil)
        (by simp [ownFields])
  | .enumeration modifiers none, valid => by
      rw [Node.isValid] at valid
      cases valid
  | .enumeration modifiers (some choices), valid => by
      rw [Node.isValid] at valid
      rw [commentedNode, ofNode]
      exact spells_commentedRecord _ _ _ _
        (spellsFields_cons _
          (spells_bracketed_list _ _ (spellsItems_choices valid))
          spellsFields_nil) (by simp [ownFields])
  | .array modifiers none, _ => by
      rw [commentedNode, ofNode]
      exact spells_commentedRecord _ _ _ _ spellsFields_nil (by simp [ownFields])
  | .array modifiers (some items), valid => by
      rw [Node.isValid] at valid
      rw [commentedNode, ofNode]
      exact spells_commentedRecord _ _ _ _
        (spellsFields_cons _ (spells_commentedNode step (level + 1) items valid)
          spellsFields_nil) (by simp [ownFields])
  | .object modifiers properties, valid => by
      rw [Node.isValid, Bool.and_eq_true, decide_eq_true_eq] at valid
      rw [commentedNode, ofNode]
      exact spells_commentedRecord _ _ _ _
        (spellsFields_cons _
          (spells_bracketed_record _ _
            (spells_commentedProperties step (level + 2) properties valid.2)
            (by rw [map_fst_ofProperties]; exact valid.1))
          spellsFields_nil) (by simp [ownFields])
  | .union modifiers none, valid => by
      rw [Node.isValid] at valid
      cases valid
  | .union modifiers (some members), valid => by
      rw [Node.isValid] at valid
      rw [commentedNode, ofNode]
      exact spells_commentedRecord _ _ _ _
        (spellsFields_cons _
          (spells_bracketed_list _ _
            (spells_commentedMembers step (level + 2) members valid))
          spellsFields_nil) (by simp [ownFields])

theorem spells_commentedProperties (step : Int) (level : Nat) :
    (properties : List (String × Node)) → areValidProperties properties = true →
      SpellsFields (commentedProperties step level properties)
        (ofProperties properties)
  | [], _ => spellsFields_nil
  | (name, node) :: rest, valid => by
      rw [areValidProperties, Bool.and_eq_true] at valid
      rw [commentedProperties, ofProperties]
      exact spellsFields_cons _ (spells_commentedNode step level node valid.1)
        (spells_commentedProperties step level rest valid.2)

/-- The commented texts of members spell their records. -/
theorem spells_commentedMembers (step : Int) (level : Nat) :
    (members : List Node) → areValidMembers members = true →
      SpellsItems (commentedMembers step level members) (ofMembers members)
  | [], _ => spellsItems_nil
  | node :: rest, valid => by
      rw [areValidMembers, Bool.and_eq_true] at valid
      rw [commentedMembers, ofMembers]
      exact spellsItems_cons (spells_commentedNode step level node valid.1)
        (spells_commentedMembers step level rest valid.2)

end

end TwinSchema.Document
