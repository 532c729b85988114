import TwinSchema.Fields
import TwinSchema.Node.Basic
import TwinSchema.Proofs.Json.Proper

/-!
# Valid nodes

A node is valid when it can be told by a text: an enumeration and a union have
their lists, the names of properties are distinct, and no integer has too many
digits, at every depth.
-/

namespace TwinSchema

mutual

/-- Whether a node can be told by a text. -/
def Node.isValid : Node → Bool
  | .leaf _ _ => true
  | .literal _ value => value.isShort
  | .enumeration _ none => false
  | .enumeration _ (some choices) =>
      choices.all fun choice => choice.toScalar.isShort
  | .array _ none => true
  | .array _ (some items) => items.isValid
  | .object _ properties =>
      decide (properties.map Prod.fst).Nodup && areValidProperties properties
  | .union _ none => false
  | .union _ (some members) => areValidMembers members

/-- Whether the nodes of properties can be told by a text. -/
def areValidProperties : List (String × Node) → Bool
  | [] => true
  | (_, node) :: rest => node.isValid && areValidProperties rest

/-- Whether the members of a union can be told by a text. -/
def areValidMembers : List Node → Bool
  | [] => true
  | node :: rest => node.isValid && areValidMembers rest

end

theorem areValidProperties_iff {properties : List (String × Node)} :
    areValidProperties properties = true ↔
      ∀ property ∈ properties, property.2.isValid = true := by
  induction properties with
  | nil => simp [areValidProperties]
  | cons property properties ih => simp [areValidProperties, ih]

theorem areValidMembers_iff {members : List Node} :
    areValidMembers members = true ↔ ∀ member ∈ members, member.isValid = true := by
  induction members with
  | nil => simp [areValidMembers]
  | cons member members ih => simp [areValidMembers, ih]

namespace Node

theorem isValid_object {modifiers : Modifiers}
    {properties : List (String × Node)} :
    (object modifiers properties).isValid = true ↔
      (properties.map Prod.fst).Nodup ∧
        ∀ property ∈ properties, property.2.isValid = true := by
  rw [isValid, Bool.and_eq_true, decide_eq_true_eq, areValidProperties_iff]

theorem isValid_setModifiers (modifiers : Modifiers) (node : Node) :
    (node.setModifiers modifiers).isValid = node.isValid := by
  cases node with
  | enumeration _ choices => cases choices <;> rfl
  | array _ items => cases items <;> rfl
  | union _ members => cases members <;> rfl
  | _ => rfl

theorem isValid_ofKind (kind : Kind) : (ofKind kind).isValid = true := by
  cases kind <;> rfl

theorem isValid_setField {modifiers : Modifiers}
    {properties : List (String × Node)}
    (valid : (object modifiers properties).isValid = true) {name : String}
    {node : Node} (nodeValid : node.isValid = true) :
    (object modifiers (setField name node properties)).isValid = true := by
  rw [isValid_object] at valid ⊢
  refine ⟨nodup_setField name node valid.1, ?_⟩
  intro property member
  rcases mem_setField member with rfl | old
  · exact nodeValid
  · exact valid.2 property old

end Node

end TwinSchema
