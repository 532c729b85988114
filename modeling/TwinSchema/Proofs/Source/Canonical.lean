import TwinSchema.Proofs.Node.Canonical
import TwinSchema.Proofs.Source.Safe

/-!
# Source text of canonical nodes

The canonical form of a node is written in the same words as the node, so it may
stand in source text when the node may.
-/

namespace TwinSchema

mutual

theorem Node.isSafe_canon : (node : Node) → node.isSafe = true →
    node.canon.isSafe = true
  | .leaf _ _, safe => safe
  | .literal _ _, safe => safe
  | .enumeration _ _, safe => safe
  | .array _ none, safe => by
      rw [Node.isSafe] at safe
      rw [Node.canon, Node.isSafe, safe]
      rfl
  | .array _ (some items), safe => by
      rw [Node.isSafe, Bool.and_eq_true] at safe
      rw [Node.canon, Node.isSafe, Bool.and_eq_true]
      exact ⟨safe.1, Node.isSafe_canon items safe.2⟩
  | .object _ properties, safe => by
      rw [Node.isSafe, Bool.and_eq_true] at safe
      rw [Node.canon, Node.isSafe, Bool.and_eq_true]
      exact ⟨safe.1, areSafe_canonProperties properties safe.2⟩
  | .union _ none, safe => safe
  | .union _ (some []), safe => by
      rw [Node.isSafe, Bool.and_eq_true] at safe
      exact safe.1
  | .union _ (some (member :: rest)), safe => by
      rw [Node.isSafe, areSafeMembers, Bool.and_eq_true, Bool.and_eq_true] at safe
      rw [Node.canon, Node.isSafe, areSafeMembers, Bool.and_eq_true,
        Bool.and_eq_true]
      exact ⟨safe.1, Node.isSafe_canon member safe.2.1,
        areSafe_canonMembers rest safe.2.2⟩

theorem areSafe_canonProperties : (properties : List (String × Node)) →
    areSafeProperties properties = true →
    areSafeProperties (canonProperties properties) = true
  | [], _ => rfl
  | (_, node) :: rest, safe => by
      rw [areSafeProperties, Bool.and_eq_true, Bool.and_eq_true] at safe
      rw [canonProperties, areSafeProperties, Bool.and_eq_true, Bool.and_eq_true]
      exact ⟨⟨safe.1.1, Node.isSafe_canon node safe.1.2⟩,
        areSafe_canonProperties rest safe.2⟩

theorem areSafe_canonMembers : (members : List Node) →
    areSafeMembers members = true → areSafeMembers (canonMembers members) = true
  | [], _ => rfl
  | node :: rest, safe => by
      rw [areSafeMembers, Bool.and_eq_true] at safe
      rw [canonMembers, areSafeMembers, Bool.and_eq_true]
      exact ⟨Node.isSafe_canon node safe.1, areSafe_canonMembers rest safe.2⟩

end

namespace Source

/-- A leaf without a constructor of its own is written like what accepts
anything. -/
theorem writeFlat_canon_leaf (modifiers : Modifiers) (kind : LeafKind) :
    writeFlat (Node.leaf modifiers kind).canon = writeFlat (.leaf modifiers kind) := by
  cases kind <;> rfl

mutual

/-- The canonical form is written in the same words. -/
theorem writeFlat_canon : (node : Node) → writeFlat node.canon = writeFlat node
  | .leaf modifiers kind => writeFlat_canon_leaf modifiers kind
  | .literal _ _ => rfl
  | .enumeration _ _ => rfl
  | .array _ none => by
      have written : writeFlat .any = callAny := rfl
      rw [Node.canon, writeFlat, writeFlat, written]
  | .array _ (some items) => by
      rw [Node.canon, writeFlat, writeFlat, writeFlat_canon items]
  | .object _ properties => by
      rw [Node.canon, writeFlat, writeFlat, writeProperties_canon properties]
  | .union _ none => rfl
  | .union _ (some []) => rfl
  | .union _ (some (member :: rest)) => by
      rw [Node.canon, writeFlat, writeFlat, writeFlat_canon member,
        writeMembers_canon rest]

theorem writeProperties_canon : (properties : List (String × Node)) →
    writeProperties (canonProperties properties) = writeProperties properties
  | [] => rfl
  | (_, node) :: rest => by
      rw [canonProperties, writeProperties, writeProperties, writeFlat_canon node,
        writeProperties_canon rest]

theorem writeMembers_canon : (members : List Node) →
    writeMembers (canonMembers members) = writeMembers members
  | [] => rfl
  | node :: rest => by
      rw [canonMembers, writeMembers, writeMembers, writeFlat_canon node,
        writeMembers_canon rest]

end

/-- The canonical form has the same source text, on one line or laid out. -/
theorem write_canon (laidOut : Bool) (step : Int) (node : Node) :
    write laidOut step node.canon = write laidOut step node := by
  rw [write, write, writeFlat_canon]

end Source

end TwinSchema
