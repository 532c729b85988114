import TwinSchema.Document.Writer
import TwinSchema.Proofs.Node.Valid

/-!
# Missing lists

An enumeration and a union may come without any list. Documents do not tell that
from an empty list, so filling the missing lists in changes none of them.
-/

namespace TwinSchema

mutual

/-- A node with empty lists in place of missing ones, at every depth. -/
def Node.complete : Node → Node
  | .leaf modifiers kind => .leaf modifiers kind
  | .literal modifiers value => .literal modifiers value
  | .enumeration modifiers choices =>
      .enumeration modifiers (some (choices.getD []))
  | .array modifiers none => .array modifiers none
  | .array modifiers (some items) => .array modifiers (some items.complete)
  | .object modifiers properties =>
      .object modifiers (completeProperties properties)
  | .union modifiers none => .union modifiers (some [])
  | .union modifiers (some members) =>
      .union modifiers (some (completeMembers members))

/-- Properties with empty lists in place of missing ones. -/
def completeProperties : List (String × Node) → List (String × Node)
  | [] => []
  | (name, node) :: rest => (name, node.complete) :: completeProperties rest

/-- Members with empty lists in place of missing ones. -/
def completeMembers : List Node → List Node
  | [] => []
  | node :: rest => node.complete :: completeMembers rest

end

namespace Document

mutual

/-- A record does not tell a missing list from an empty one. -/
theorem ofNode_complete : (node : Node) → ofNode node.complete = ofNode node
  | .leaf _ _ => rfl
  | .literal _ _ => rfl
  | .enumeration _ _ => by rw [Node.complete, ofNode, ofNode, Option.getD_some]
  | .array _ none => rfl
  | .array _ (some items) => by
      rw [Node.complete, ofNode, ofNode, ofNode_complete items]
  | .object _ properties => by
      rw [Node.complete, ofNode, ofNode, ofProperties_complete properties]
  | .union _ none => by rw [Node.complete, ofNode, ofNode, ofMembers]
  | .union _ (some members) => by
      rw [Node.complete, ofNode, ofNode, ofMembers_complete members]

theorem ofProperties_complete : (properties : List (String × Node)) →
    ofProperties (completeProperties properties) = ofProperties properties
  | [] => rfl
  | (name, node) :: rest => by
      rw [completeProperties, ofProperties, ofProperties, ofNode_complete node,
        ofProperties_complete rest]

theorem ofMembers_complete : (members : List Node) →
    ofMembers (completeMembers members) = ofMembers members
  | [] => rfl
  | node :: rest => by
      rw [completeMembers, ofMembers, ofMembers, ofNode_complete node,
        ofMembers_complete rest]

end

mutual

/-- Neither does a record with comments. -/
theorem commentedNode_complete (step : Int) (level : Nat) : (node : Node) →
    commentedNode step level node.complete = commentedNode step level node
  | .leaf _ _ => rfl
  | .literal _ _ => rfl
  | .enumeration _ _ => by
      rw [Node.complete, commentedNode, commentedNode, Option.getD_some]
  | .array _ none => rfl
  | .array _ (some items) => by
      rw [Node.complete, commentedNode, commentedNode,
        commentedNode_complete step (level + 1) items]
  | .object _ properties => by
      rw [Node.complete, commentedNode, commentedNode,
        commentedProperties_complete step (level + 2) properties]
  | .union _ none => by
      rw [Node.complete, commentedNode, commentedNode, commentedMembers]
  | .union _ (some members) => by
      rw [Node.complete, commentedNode, commentedNode,
        commentedMembers_complete step (level + 2) members]

theorem commentedProperties_complete (step : Int) (level : Nat) :
    (properties : List (String × Node)) →
      commentedProperties step level (completeProperties properties) =
        commentedProperties step level properties
  | [] => rfl
  | (name, node) :: rest => by
      rw [completeProperties, commentedProperties, commentedProperties,
        commentedNode_complete step level node,
        commentedProperties_complete step level rest]

theorem commentedMembers_complete (step : Int) (level : Nat) :
    (members : List Node) →
      commentedMembers step level (completeMembers members) =
        commentedMembers step level members
  | [] => rfl
  | node :: rest => by
      rw [completeMembers, commentedMembers, commentedMembers,
        commentedNode_complete step level node,
        commentedMembers_complete step level rest]

end

end Document

end TwinSchema
