import TwinSchema.Node.Walk

/-!
# Properties of a whole tree

A walk comes to every node of a tree. What holds of each of them is told by the
root and by the trees below it.
-/

namespace TwinSchema

namespace Node

/-- A property that every node of a tree has. -/
def Throughout (property : Node → Prop) (root : Node) : Prop :=
  ∀ place ∈ root.walk, property place.2

mutual

/-- Which nodes a walk comes to does not depend on where it starts. -/
theorem map_snd_walkFrom (path other : Path) : (node : Node) →
    (node.walkFrom path).map Prod.snd = (node.walkFrom other).map Prod.snd
  | .leaf _ _ => rfl
  | .literal _ _ => rfl
  | .enumeration _ _ => rfl
  | .array _ none => rfl
  | .array _ (some items) => by
      rw [walkFrom, walkFrom, List.map_cons, List.map_cons,
        map_snd_walkFrom _ (other ++ [.items]) items]
  | .object _ properties => by
      rw [walkFrom, walkFrom, List.map_cons, List.map_cons,
        map_snd_walkProperties path other properties]
  | .union _ none => rfl
  | .union _ (some members) => by
      rw [walkFrom, walkFrom, List.map_cons, List.map_cons,
        map_snd_walkMembers path other 0 members]

theorem map_snd_walkProperties (path other : Path) :
    (properties : List (String × Node)) →
      (walkProperties path properties).map Prod.snd =
        (walkProperties other properties).map Prod.snd
  | [] => rfl
  | (name, node) :: rest => by
      rw [walkProperties, walkProperties, List.map_append, List.map_append,
        map_snd_walkFrom _ (other ++ [.property name]) node,
        map_snd_walkProperties path other rest]

theorem map_snd_walkMembers (path other : Path) (index : Nat) :
    (members : List Node) →
      (walkMembers path index members).map Prod.snd =
        (walkMembers other index members).map Prod.snd
  | [] => rfl
  | node :: rest => by
      rw [walkMembers, walkMembers, List.map_append, List.map_append,
        map_snd_walkFrom _ (other ++ [.member index]) node,
        map_snd_walkMembers path other (index + 1) rest]

end

variable {property : Node → Prop}

theorem forall_walkFrom (path : Path) (node : Node) :
    (∀ place ∈ node.walkFrom path, property place.2) ↔ node.Throughout property := by
  have same := map_snd_walkFrom path [] node
  rw [← List.forall_mem_map (f := Prod.snd), same, List.forall_mem_map]
  rfl

theorem forall_walkProperties (path : Path) (properties : List (String × Node)) :
    (∀ place ∈ walkProperties path properties, property place.2) ↔
      ∀ entry ∈ properties, entry.2.Throughout property := by
  induction properties with
  | nil => simp [walkProperties]
  | cons entry rest ih =>
      obtain ⟨name, node⟩ := entry
      rw [walkProperties, List.forall_mem_append, List.forall_mem_cons,
        forall_walkFrom, ih]

theorem forall_walkMembers (path : Path) (index : Nat) (members : List Node) :
    (∀ place ∈ walkMembers path index members, property place.2) ↔
      ∀ member ∈ members, member.Throughout property := by
  induction members generalizing index with
  | nil => simp [walkMembers]
  | cons node rest ih =>
      rw [walkMembers, List.forall_mem_append, List.forall_mem_cons,
        forall_walkFrom, ih]

/-- The nodes directly below a node. -/
def children : Node → List Node
  | .array _ (some items) => [items]
  | .object _ properties => properties.map Prod.snd
  | .union _ (some members) => members
  | _ => []

/-- A property holds throughout a tree when the root has it and it holds
throughout each tree below the root. -/
theorem throughout_iff {node : Node} :
    node.Throughout property ↔
      property node ∧ ∀ child ∈ node.children, child.Throughout property := by
  cases node with
  | array modifiers items =>
      cases items with
      | none => simp [Throughout, walk, walkFrom, children]
      | some items =>
          rw [Throughout, walk, walkFrom, List.forall_mem_cons, forall_walkFrom,
            children, List.forall_mem_singleton]
  | object modifiers properties =>
      rw [Throughout, walk, walkFrom, List.forall_mem_cons, forall_walkProperties,
        children, List.forall_mem_map]
  | union modifiers members =>
      cases members with
      | none => simp [Throughout, walk, walkFrom, children]
      | some members =>
          rw [Throughout, walk, walkFrom, List.forall_mem_cons, forall_walkMembers,
            children]
  | _ => simp [Throughout, walk, walkFrom, children]

theorem sizeOf_lt_of_mem_children {node child : Node}
    (member : child ∈ node.children) : sizeOf child < sizeOf node := by
  cases node with
  | array modifiers items =>
      cases items with
      | none => cases member
      | some items =>
          rw [List.mem_singleton.mp member]
          simp only [array.sizeOf_spec, Option.some.sizeOf_spec]
          omega
  | object modifiers properties =>
      obtain ⟨⟨name, node⟩, inside, rfl⟩ := List.mem_map.mp member
      have smaller := List.sizeOf_lt_of_mem inside
      simp only [object.sizeOf_spec, Prod.mk.sizeOf_spec] at smaller ⊢
      omega
  | union modifiers members =>
      cases members with
      | none => cases member
      | some members =>
          have smaller := List.sizeOf_lt_of_mem (show child ∈ members from member)
          simp only [union.sizeOf_spec, Option.some.sizeOf_spec]
          omega
  | _ => cases member

/-- Induction from the nodes below a node to the node. -/
theorem induction_on_children {motive : Node → Prop}
    (step : ∀ node, (∀ child ∈ node.children, motive child) → motive node)
    (node : Node) : motive node :=
  step node fun child member =>
    have := sizeOf_lt_of_mem_children member
    induction_on_children step child
termination_by sizeOf node

/-- What holds throughout a tree holds throughout every tree inside it. -/
theorem throughout_throughout {root : Node} (throughout : root.Throughout property) :
    root.Throughout (Throughout property) := by
  induction root using induction_on_children with
  | step root ih =>
      have below := (throughout_iff.mp throughout).2
      refine throughout_iff.mpr ⟨throughout, fun child member => ?_⟩
      exact ih child member (below child member)

end Node

end TwinSchema
