import TwinSchema.Proofs.Document.Reading
import TwinSchema.Proofs.Node.Fields
import TwinSchema.Proofs.Source.Telling

/-!
# Nodes however they are obtained

Nodes come from documents, from source text and from records that are accepted,
and are changed and put together further on. None of these steps gives a node a
field that its kind has no use for.
-/

namespace TwinSchema

open Json (Value)
open Validation

def isNull : Option Value → Bool
  | some (.scalar .null) => true
  | _ => false

/-- Whether the list that the kind of a record needs is not null under its short
name. -/
def givesList (fields : List (String × Value)) : Bool :=
  match (fields.lookup "kind").bind Value.text? with
  | some "enum" => !isNull (fields.lookup "enumValues")
  | some "union" => !isNull (fields.lookup "unionMembers")
  | _ => true

mutual

/-- Whether no record in a value has null for a list that it needs. -/
def givesLists : Value → Bool
  | .scalar _ => true
  | .list items => itemsGiveLists items
  | .record fields => givesList fields && fieldsGiveLists fields

/-- Whether no record in the items of a list has null for a list. -/
def itemsGiveLists : List Value → Bool
  | [] => true
  | value :: rest => givesLists value && itemsGiveLists rest

/-- Whether no record in the contents of fields has null for a list. -/
def fieldsGiveLists : List (String × Value) → Bool
  | [] => true
  | (_, value) :: rest => givesLists value && fieldsGiveLists rest

end

theorem kind_of_readKind {fields : List (String × Value)} {place : List String}
    {kind : Kind} (read : readKind fields place = .ok kind) :
    (fields.lookup "kind").bind Value.text? = some kind.name := by
  simp only [readKind] at read
  split at read
  next => cases read
  next value found =>
    split at read
    next named =>
      cases read
      obtain ⟨name, text, known⟩ := Option.bind_eq_some_iff.mp named
      have same := List.find?_some known
      rw [found, Option.bind_some, text, eq_of_beq same]
    next => cases read

/-- The members that a record gives under their short name are null only when the
field is. -/
theorem isNull_of_shortMembers {place : List String}
    {fields : List (String × Value)}
    (null : (readBranches place fields).shortMembers = some (.ok none)) :
    isNull (fields.lookup "unionMembers") = true := by
  induction fields with
  | nil => rw [readBranches] at null; cases null
  | cons field rest ih =>
      obtain ⟨name, value⟩ := field
      rw [readBranches.eq_def] at null
      rw [List.lookup_cons]
      simp only at null
      split at null
      next => exact ih null
      next => exact ih null
      next =>
        split at null
        next => rfl
        next values =>
          cases told : readMembers (place ++ ["unionMembers"]) 0 values with
          | error issues => rw [told] at null; cases null
          | ok members => rw [told] at null; cases null
        next => cases null
      next => exact ih null
      next other _ _ notShort _ =>
        have different : ("unionMembers" == name) = false := by
          simpa using fun same => notShort same.symm
        rw [different]
        exact ih null

theorem givesLists_readBranches {place : List String}
    {fields : List (String × Value)} (given : givesList fields = true) :
    GivesLists place fields (readBranches place fields) := by
  refine ⟨fun due null => ?_, fun due null => ?_⟩
  · rw [givesList, kind_of_readKind due, null] at given
    cases given
  · rw [givesList, kind_of_readKind due] at given
    simp only [Kind.name, isNull_of_shortMembers null] at given
    cases given

theorem exists_of_mem_present? {α : Type} {checked : Checked (List α)} {item : α}
    (member : item ∈ (present? (some (checked.map some))).getD []) :
    ∃ list, checked = .ok list ∧ item ∈ list := by
  cases checked with
  | error issues => cases member
  | ok list => exact ⟨list, rfl, member⟩

theorem exists_of_mem_members {here : List String} {value : Value} {child : Node}
    (inside : child ∈ (present? (some (match value with
      | .scalar .null => .ok none
      | .list values => (readMembers here 0 values).map some
      | _ => .error [⟨here, .notList⟩]))).getD []) :
    ∃ values members, value = .list values ∧
      readMembers here 0 values = .ok members ∧ child ∈ members := by
  split at inside
  next => cases inside
  next values =>
    obtain ⟨members, read, inside⟩ := exists_of_mem_present? inside
    exact ⟨values, members, rfl, read, inside⟩
  next => cases inside

/-- What a node comes from that a record is given: from a later field, or from
the first one, read as properties, as a node or as members. -/
theorem mem_nodes_readBranches {place : List String} {name : String} {value : Value}
    {rest : List (String × Value)} {child : Node}
    (member : child ∈ (readBranches place ((name, value) :: rest)).nodes) :
    child ∈ (readBranches place rest).nodes ∨
      (∃ entries properties, value = .record entries ∧
        readProperties (place ++ [name]) entries = .ok properties ∧
        child ∈ properties.map Prod.snd) ∨
      readNode (place ++ [name]) value = .ok child ∨
      ∃ values members, value = .list values ∧
        readMembers (place ++ [name]) 0 values = .ok members ∧ child ∈ members := by
  rw [readBranches.eq_def] at member
  simp only [Branches.nodes, List.mem_append] at member ⊢
  split at member
  next =>
    rcases member with ((inside | inside) | inside) | inside
    · split at inside
      next => cases inside
      next entries =>
        obtain ⟨entry, listed, rfl⟩ := List.mem_map.mp inside
        obtain ⟨properties, read, inside⟩ := exists_of_mem_present? listed
        exact .inr (.inl ⟨entries, properties, rfl, read,
          List.mem_map.mpr ⟨entry, inside, rfl⟩⟩)
      next => cases inside
    · exact .inl (.inl (.inl (.inr inside)))
    · exact .inl (.inl (.inr inside))
    · exact .inl (.inr inside)
  next =>
    rcases member with ((inside | inside) | inside) | inside
    · exact .inl (.inl (.inl (.inl inside)))
    · split at inside
      next => cases inside
      next =>
        cases read : readNode (place ++ ["items"]) value with
        | error issues => rw [read] at inside; cases inside
        | ok items =>
            rw [read] at inside
            exact .inr (.inr (.inl (List.mem_singleton.mp inside ▸ rfl)))
    · exact .inl (.inl (.inr inside))
    · exact .inl (.inr inside)
  next =>
    rcases member with ((inside | inside) | inside) | inside
    · exact .inl (.inl (.inl (.inl inside)))
    · exact .inl (.inl (.inl (.inr inside)))
    · exact .inr (.inr (.inr (exists_of_mem_members inside)))
    · exact .inl (.inr inside)
  next =>
    rcases member with ((inside | inside) | inside) | inside
    · exact .inl (.inl (.inl (.inl inside)))
    · exact .inl (.inl (.inl (.inr inside)))
    · exact .inl (.inl (.inr inside))
    · exact .inr (.inr (.inr (exists_of_mem_members inside)))
  next => exact .inl member

mutual

/-- A record whose records give their lists is read as a node that is sound at
every depth. -/
theorem throughout_readNode (place : List String) : (value : Value) →
    givesLists value = true → ∀ {node : Node}, readNode place value = .ok node →
      node.Throughout fun part => part.toParts.Sound
  | .scalar _, _, _, accepted => by simp [readNode] at accepted
  | .list _, _, _, accepted => by simp [readNode] at accepted
  | .record fields, given, _, accepted => by
      rw [givesLists, Bool.and_eq_true] at given
      rw [readNode] at accepted
      exact throughout_assemble accepted (givesLists_readBranches given.1)
        (throughout_readBranches place fields given.2)

theorem throughout_readBranches (place : List String) :
    (fields : List (String × Value)) → fieldsGiveLists fields = true →
      ∀ child ∈ (readBranches place fields).nodes,
        child.Throughout fun part => part.toParts.Sound
  | [], _ => by
      rw [readBranches]
      intro child member
      cases member
  | (name, .scalar _) :: rest, given => by
      rw [fieldsGiveLists, Bool.and_eq_true] at given
      intro child member
      rcases mem_nodes_readBranches member with later | ⟨_, _, same, _⟩ | node |
        ⟨_, _, same, _⟩
      · exact throughout_readBranches place rest given.2 child later
      · cases same
      · simp [readNode] at node
      · cases same
  | (name, .list values) :: rest, given => by
      rw [fieldsGiveLists, Bool.and_eq_true, givesLists] at given
      intro child member
      rcases mem_nodes_readBranches member with later | ⟨_, _, same, _⟩ | node |
        ⟨_, members, same, read, inside⟩
      · exact throughout_readBranches place rest given.2 child later
      · cases same
      · simp [readNode] at node
      · cases same
        exact throughout_readMembers _ 0 values given.1 read child inside
  | (name, .record entries) :: rest, given => by
      rw [fieldsGiveLists, Bool.and_eq_true] at given
      intro child member
      rcases mem_nodes_readBranches member with later |
        ⟨_, properties, same, read, inside⟩ | node | ⟨_, _, same, _⟩
      · exact throughout_readBranches place rest given.2 child later
      · cases same
        rw [givesLists, Bool.and_eq_true] at given
        obtain ⟨entry, listed, rfl⟩ := List.mem_map.mp inside
        exact throughout_readProperties _ entries given.1.2 read entry listed
      · exact throughout_readNode _ (.record entries) given.1 node
      · cases same

theorem throughout_readProperties (place : List String) :
    (entries : List (String × Value)) → fieldsGiveLists entries = true →
      ∀ {properties : List (String × Node)},
        readProperties place entries = .ok properties →
          ∀ entry ∈ properties, entry.2.Throughout fun part => part.toParts.Sound
  | [], _, _, read => by
      rw [readProperties] at read
      cases read
      simp
  | (name, value) :: rest, given, _, read => by
      rw [fieldsGiveLists, Bool.and_eq_true] at given
      rw [readProperties] at read
      obtain ⟨node, others, first, later, rfl⟩ := both_eq_ok read
      exact List.forall_mem_cons.mpr
        ⟨throughout_readNode _ value given.1 first,
          throughout_readProperties place rest given.2 later⟩

theorem throughout_readMembers (place : List String) (index : Nat) :
    (values : List Value) → itemsGiveLists values = true →
      ∀ {members : List Node}, readMembers place index values = .ok members →
        ∀ member ∈ members, member.Throughout fun part => part.toParts.Sound
  | [], _, _, read => by
      rw [readMembers] at read
      cases read
      simp
  | value :: rest, given, _, read => by
      rw [itemsGiveLists, Bool.and_eq_true] at given
      rw [readMembers] at read
      obtain ⟨node, others, first, later, rfl⟩ := both_eq_ok read
      exact List.forall_mem_cons.mpr
        ⟨throughout_readNode _ value given.1 first,
          throughout_readMembers place (index + 1) rest given.2 later⟩

end

/-- The nodes that come out of any sequence of steps: reading a document or source
text, accepting a record, accepting fields together with nodes from before,
changing modifiers, and taking a node out of a tree. No record gives null for a
list that it needs. -/
inductive Node.Obtained : Node → Prop where
  | document {text : List Char} {node : Node}
      (read : Document.read text = .ok node) : Obtained node
  | source {text : List Char} {node : Node}
      (read : Source.read text = .ok node) : Obtained node
  | record {value : Value} {node : Node} (accepted : ofRecord value = .ok node)
      (given : givesLists value = true) : Obtained node
  | assembled {place : List String} {fields : List (String × Value)}
      {branches : Branches} {node : Node}
      (accepted : assemble place fields branches = .ok node)
      (given : GivesLists place fields branches)
      (below : ∀ child ∈ branches.nodes, Obtained child) : Obtained node
  | changed {node : Node} (change : Change) (obtained : Obtained node) :
      Obtained (node.apply change)
  | part {root : Node} (obtained : Obtained root) {place : Path × Node}
      (member : place ∈ root.walk) : Obtained place.2

/-- Every node of every tree that is obtained carries the field of its own kind
and none of another. -/
theorem sound_of_obtained {root : Node} (obtained : root.Obtained) :
    ∀ place ∈ root.walk, place.2.toParts.Sound := by
  change root.Throughout fun part => part.toParts.Sound
  induction obtained with
  | document read => exact Node.throughout_of_isValid (Document.isValid_of_read read)
  | source read => exact Node.throughout_of_isValid (Source.isValid_of_read read)
  | record accepted given => exact throughout_readNode [] _ given accepted
  | assembled accepted given _ ih => exact throughout_assemble accepted given ih
  | changed change _ ih => exact Node.throughout_apply change ih
  | part _ member ih => exact Node.throughout_throughout ih _ member

/-- A node from a record is changed, and an array is assembled around it. -/
theorem sound_of_obtained_array :
    ∃ root : Node, root.Obtained ∧ root.walk.length = 2 ∧
      ∀ place ∈ root.walk, place.2.toParts.Sound := by
  have choice : Node.Obtained (.enumeration {} (some [])) :=
    .record (show Node.ofRecord (.record [("kind", .text "enum"),
      ("enum_values", .null)]) = .ok _ from rfl) (by decide)
  have changed : Node.Obtained (.enumeration { nullable := true } (some [])) :=
    choice.changed { nullable := true }
  have array : Node.Obtained
      (.array {} (some (.enumeration { nullable := true } (some [])))) :=
    .assembled
      (show assemble [] [("kind", .text "array")] { items := some (.ok (some
        (.enumeration { nullable := true } (some [])))) } = .ok _ from rfl)
      ⟨fun _ => nofun, fun _ => nofun⟩
      (by simpa [Branches.nodes, present?] using changed)
  exact ⟨_, array, rfl, sound_of_obtained array⟩

/-- An enumeration whose list is null under its short name is accepted without
any list. -/
theorem sound_of_obtained_fails :
    ∃ node, Node.ofRecord (.record [("kind", .text "enum"), ("enumValues", .null)]) =
        .ok node ∧
      node.toParts.kind = .enumeration ∧ node.toParts.choices = none ∧
      ¬ ∀ place ∈ node.walk, place.2.toParts.Sound := by
  refine ⟨.enumeration {} none, rfl, rfl, rfl, fun sound => ?_⟩
  have present := (sound _ List.mem_cons_self).choices.mpr rfl
  cases present

end TwinSchema
