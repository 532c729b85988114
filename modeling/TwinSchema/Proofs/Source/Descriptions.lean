import TwinSchema.Proofs.Source.RoundTrip

/-!
# Descriptions as data

Two nodes that differ in the texts of their descriptions alone are read back
from their source texts as nodes that differ in their descriptions alone, as
long as no string holds an assignment. The search for a declaration also looks
into strings, so an assignment in a description is read in place of the node.
-/

namespace TwinSchema

def Modifiers.redescribe (change : Option String → Option String)
    (modifiers : Modifiers) : Modifiers :=
  { modifiers with description := change modifiers.description }

mutual

def Node.redescribe (change : Option String → Option String) : Node → Node
  | .leaf modifiers kind => .leaf (modifiers.redescribe change) kind
  | .literal modifiers value => .literal (modifiers.redescribe change) value
  | .enumeration modifiers choices =>
      .enumeration (modifiers.redescribe change) choices
  | .array modifiers none => .array (modifiers.redescribe change) none
  | .array modifiers (some items) =>
      .array (modifiers.redescribe change) (some (items.redescribe change))
  | .object modifiers properties =>
      .object (modifiers.redescribe change) (redescribeProperties change properties)
  | .union modifiers none => .union (modifiers.redescribe change) none
  | .union modifiers (some members) =>
      .union (modifiers.redescribe change) (some (redescribeMembers change members))

def redescribeProperties (change : Option String → Option String) :
    List (String × Node) → List (String × Node)
  | [] => []
  | (name, node) :: rest =>
      (name, node.redescribe change) :: redescribeProperties change rest

/-- Members of a union with every description changed. -/
def redescribeMembers (change : Option String → Option String) :
    List Node → List Node
  | [] => []
  | node :: rest => node.redescribe change :: redescribeMembers change rest

end

namespace Node

def undescribed (node : Node) : Node := node.redescribe fun _ => none

/-- Whether two nodes are the same up to the texts of their descriptions, which
are present at the same places. -/
def EqUpToDescriptions (left right : Node) : Prop :=
  left.redescribe (Option.map fun _ => "") =
    right.redescribe (Option.map fun _ => "")

end Node

section Redescribing

variable (first second : Option String → Option String)

mutual

/-- Two changes one after the other are one change. -/
theorem Node.redescribe_redescribe : (node : Node) →
    (node.redescribe first).redescribe second =
      node.redescribe fun description => second (first description)
  | .leaf _ _ | .literal _ _ | .enumeration _ _ => rfl
  | .array _ none => rfl
  | .array _ (some items) => by
      simp only [Node.redescribe, Node.redescribe_redescribe items]
      rfl
  | .object _ properties => by
      simp only [Node.redescribe, redescribeProperties_redescribe properties]
      rfl
  | .union _ none => rfl
  | .union _ (some members) => by
      simp only [Node.redescribe, redescribeMembers_redescribe members]
      rfl

theorem redescribeProperties_redescribe : (properties : List (String × Node)) →
    redescribeProperties second (redescribeProperties first properties) =
      redescribeProperties (fun description => second (first description)) properties
  | [] => rfl
  | (_, node) :: rest => by
      simp only [redescribeProperties, Node.redescribe_redescribe node,
        redescribeProperties_redescribe rest]

theorem redescribeMembers_redescribe : (members : List Node) →
    redescribeMembers second (redescribeMembers first members) =
      redescribeMembers (fun description => second (first description)) members
  | [] => rfl
  | node :: rest => by
      simp only [redescribeMembers, Node.redescribe_redescribe node,
        redescribeMembers_redescribe rest]

end

end Redescribing

section Canonical

variable {change : Option String → Option String}

theorem Node.redescribe_any (absent : change none = none) :
    Node.any.redescribe change = .any := by
  simp only [Node.any, Node.redescribe, Modifiers.redescribe, absent]

mutual

/-- A change that adds no descriptions commutes with the canonical form. -/
theorem Node.canon_redescribe (absent : change none = none) : (node : Node) →
    (node.redescribe change).canon = node.canon.redescribe change
  | .leaf _ _ | .literal _ _ | .enumeration _ _ => rfl
  | .array _ none => by
      simp only [Node.redescribe, Node.canon, Node.redescribe_any absent]
  | .array _ (some items) => by
      simp only [Node.redescribe, Node.canon, Node.canon_redescribe absent items]
  | .object _ properties => by
      simp only [Node.redescribe, Node.canon,
        canonProperties_redescribe absent properties]
  | .union _ none | .union _ (some []) => rfl
  | .union _ (some (member :: rest)) => by
      simp only [Node.redescribe, redescribeMembers, Node.canon,
        Node.canon_redescribe absent member, canonMembers_redescribe absent rest]

theorem canonProperties_redescribe (absent : change none = none) :
    (properties : List (String × Node)) →
    canonProperties (redescribeProperties change properties) =
      redescribeProperties change (canonProperties properties)
  | [] => rfl
  | (_, node) :: rest => by
      simp only [redescribeProperties, canonProperties, Node.canon_redescribe absent node,
        canonProperties_redescribe absent rest]

theorem canonMembers_redescribe (absent : change none = none) :
    (members : List Node) →
    canonMembers (redescribeMembers change members) =
      redescribeMembers change (canonMembers members)
  | [] => rfl
  | node :: rest => by
      simp only [redescribeMembers, canonMembers, Node.canon_redescribe absent node,
        canonMembers_redescribe absent rest]

end

end Canonical

namespace Node

/-- Nodes that are the same up to the texts of their descriptions are the same
without them. -/
theorem EqUpToDescriptions.undescribed_eq {left right : Node}
    (same : EqUpToDescriptions left right) : left.undescribed = right.undescribed := by
  have erased := congrArg Node.undescribed same
  simpa only [undescribed, redescribe_redescribe] using erased

/-- Canonical forms are the same up to descriptions when the nodes are. -/
theorem EqUpToDescriptions.undescribed_canon {left right : Node}
    (same : EqUpToDescriptions left right) :
    left.canon.undescribed = right.canon.undescribed := by
  have erased := congrArg Node.canon same.undescribed_eq
  simpa only [undescribed, canon_redescribe] using erased

end Node

namespace Source

/-- Descriptions without assignments are data: two nodes that differ in their
texts alone are read back as the same node up to descriptions, in every
layout. -/
theorem read_write_undescribed (laidOut : Bool) (step : Int) {left right : Node}
    (leftValid : left.isValid = true) (rightValid : right.isValid = true)
    (leftSafe : left.isSafe = true) (rightSafe : right.isSafe = true)
    (same : left.EqUpToDescriptions right) :
    ∃ first second, read (write laidOut step left) = .ok first ∧
      read (write laidOut step right) = .ok second ∧
      first.undescribed = second.undescribed := by
  obtain ⟨leftStyle, leftWritten⟩ := exists_style laidOut step leftValid leftSafe
  obtain ⟨rightStyle, rightWritten⟩ := exists_style laidOut step rightValid rightSafe
  refine ⟨left.canon, right.canon, ?_, ?_, same.undescribed_canon⟩
  · rw [leftWritten]
    exact read_fragment leftStyle leftValid leftSafe
  · rw [rightWritten]
    exact read_fragment rightStyle rightValid rightSafe

/-- The words of a declaration may stand in a description, and so may signs of
every kind. -/
theorem read_write_undescribed_signs :
    let left := Node.object {}
      [("a", .array { description := some "import x from 'y'; // const z" } none)]
    let right := Node.object {}
      [("a", .array { description := some "\x7d) export const A = 1 /* \x60" } none)]
    left.isValid = true ∧ right.isValid = true ∧
      left.isSafe = true ∧ right.isSafe = true ∧ left.EqUpToDescriptions right ∧
      ∃ first second, read (write true 2 left) = .ok first ∧
        read (write true 2 right) = .ok second ∧
        first.undescribed = second.undescribed :=
  ⟨by decide, by decide, by decide, by decide, rfl,
    read_write_undescribed true 2 (by decide) (by decide) (by decide) (by decide) rfl⟩

/-- An assignment in a description is taken for a declaration, so a text is read
back as a number. -/
theorem read_write_undescribed_fails :
    let left := Node.leaf { description := some "plain" } .string
    let right := Node.leaf { description := some "const x = z.number()" } .string
    left.isValid = true ∧ right.isValid = true ∧ left.EqUpToDescriptions right ∧
      ¬ ∃ first second, read (write false 2 left) = .ok first ∧
        read (write false 2 right) = .ok second ∧
        first.undescribed = second.undescribed := by
  intro left right
  have valid : left.isValid = true ∧ right.isValid = true := ⟨rfl, rfl⟩
  refine ⟨valid.1, valid.2, rfl, ?_⟩
  have leftRead : read (write false 2 left) = .ok left := by
    obtain ⟨style, written⟩ :=
      exists_style false 2 valid.1 (by decide : left.isSafe = true)
    rw [written]
    exact read_fragment style valid.1 (by decide)
  have rightRead : read (write false 2 right) = .ok (.leaf {} .number) := by
    have cleaned : clean (write false 2 right) = write false 2 right := by
      decide +kernel
    have noExport : exportedDeclaration? (write false 2 right) = none := by
      decide +kernel
    have found : declaration? (write false 2 right) =
        some "z.number()\")".toList := by
      decide +kernel
    have chain : splitChain "z.number()\")".toList =
        some ⟨some ⟨"number", []⟩, []⟩ := by
      decide +kernel
    have called : readCall "number" [] = .ok (.leaf {} .number) := by
      rw [readCall.eq_def]
      rfl
    have told : readExpression "z.number()\")".toList = .ok (.leaf {} .number) :=
      readExpression_of_split chain called rfl
    have notBlank : ¬ Text.allBlank (write false 2 right) = true := by decide +kernel
    rw [read, cleaned, readClean, if_neg notBlank, noExport, found, firstReadable,
      firstReadable, readTopLevel, told]
  rintro ⟨first, second, firstRead, secondRead, same⟩
  rw [leftRead] at firstRead
  rw [rightRead] at secondRead
  cases firstRead
  cases secondRead
  cases same

end Source

end TwinSchema
