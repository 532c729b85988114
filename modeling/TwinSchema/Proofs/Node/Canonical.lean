import TwinSchema.Proofs.Node.Valid

/-!
# Canonical nodes

Source text has no constructor for a modifier that stands alone, for a union
without members and for an array that leaves its items open. What is written
for these accepts anything; the canonical form of a node says so in the node
itself.
-/

namespace TwinSchema

mutual

/-- The node that the source text of a node tells. -/
def Node.canon : Node → Node
  | .leaf modifiers kind =>
      .leaf modifiers (if kind.isPrimitive then kind else .any)
  | .literal modifiers value => .literal modifiers value
  | .enumeration modifiers choices => .enumeration modifiers choices
  | .array modifiers none => .array modifiers (some .any)
  | .array modifiers (some items) => .array modifiers (some items.canon)
  | .object modifiers properties =>
      .object modifiers (canonProperties properties)
  | .union modifiers (some (member :: rest)) =>
      .union modifiers (some (member.canon :: canonMembers rest))
  | .union modifiers _ => .leaf modifiers .any

def canonProperties : List (String × Node) → List (String × Node)
  | [] => []
  | (name, node) :: rest => (name, node.canon) :: canonProperties rest

def canonMembers : List Node → List Node
  | [] => []
  | node :: rest => node.canon :: canonMembers rest

end

theorem map_fst_canonProperties (properties : List (String × Node)) :
    (canonProperties properties).map Prod.fst = properties.map Prod.fst := by
  induction properties with
  | nil => rfl
  | cons property properties ih =>
      rw [canonProperties, List.map_cons, List.map_cons, ih]

namespace Node

theorem modifiers_canon (node : Node) :
    node.canon.modifiers = node.modifiers := by
  cases node with
  | array modifiers items => cases items <;> rfl
  | union modifiers members =>
      cases members with
      | none => rfl
      | some members => cases members <;> rfl
  | _ => rfl

theorem canon_leaf_canon (modifiers : Modifiers) (kind : LeafKind) :
    (leaf modifiers kind).canon.canon = (leaf modifiers kind).canon := by
  cases kind <;> rfl

end Node

mutual

theorem Node.canon_canon : (node : Node) → node.canon.canon = node.canon
  | .leaf modifiers kind => Node.canon_leaf_canon modifiers kind
  | .literal _ _ => rfl
  | .enumeration _ _ => rfl
  | .array _ none => rfl
  | .array _ (some items) => by
      rw [Node.canon, Node.canon, Node.canon_canon items]
  | .object _ properties => by
      rw [Node.canon, Node.canon, canonProperties_canonProperties properties]
  | .union _ none => rfl
  | .union _ (some []) => rfl
  | .union _ (some (member :: rest)) => by
      rw [Node.canon, Node.canon, Node.canon_canon member,
        canonMembers_canonMembers rest]

theorem canonProperties_canonProperties : (properties : List (String × Node)) →
    canonProperties (canonProperties properties) = canonProperties properties
  | [] => rfl
  | (_, node) :: rest => by
      rw [canonProperties, canonProperties, Node.canon_canon node,
        canonProperties_canonProperties rest]

theorem canonMembers_canonMembers : (members : List Node) →
    canonMembers (canonMembers members) = canonMembers members
  | [] => rfl
  | node :: rest => by
      rw [canonMembers, canonMembers, Node.canon_canon node,
        canonMembers_canonMembers rest]

end

mutual

theorem Node.isValid_canon : (node : Node) → node.isValid = true →
    node.canon.isValid = true
  | .leaf _ _, _ => rfl
  | .literal _ _, valid => valid
  | .enumeration _ none, valid => valid
  | .enumeration _ (some _), valid => valid
  | .array _ none, _ => rfl
  | .array _ (some items), valid => by
      rw [Node.isValid] at valid
      exact Node.isValid_canon items valid
  | .object _ properties, valid => by
      rw [Node.isValid, Bool.and_eq_true, decide_eq_true_eq] at valid
      rw [Node.canon, Node.isValid, Bool.and_eq_true, decide_eq_true_eq,
        map_fst_canonProperties]
      exact ⟨valid.1, areValid_canonProperties properties valid.2⟩
  | .union _ none, _ => rfl
  | .union _ (some []), _ => rfl
  | .union _ (some (member :: rest)), valid => by
      rw [Node.isValid, areValidMembers, Bool.and_eq_true] at valid
      rw [Node.canon, Node.isValid, areValidMembers, Bool.and_eq_true]
      exact ⟨Node.isValid_canon member valid.1, areValid_canonMembers rest valid.2⟩

theorem areValid_canonProperties : (properties : List (String × Node)) →
    areValidProperties properties = true →
    areValidProperties (canonProperties properties) = true
  | [], _ => rfl
  | (_, node) :: rest, valid => by
      rw [areValidProperties, Bool.and_eq_true] at valid
      rw [canonProperties, areValidProperties, Bool.and_eq_true]
      exact ⟨Node.isValid_canon node valid.1, areValid_canonProperties rest valid.2⟩

theorem areValid_canonMembers : (members : List Node) →
    areValidMembers members = true → areValidMembers (canonMembers members) = true
  | [], _ => rfl
  | node :: rest, valid => by
      rw [areValidMembers, Bool.and_eq_true] at valid
      rw [canonMembers, areValidMembers, Bool.and_eq_true]
      exact ⟨Node.isValid_canon node valid.1, areValid_canonMembers rest valid.2⟩

end

end TwinSchema
