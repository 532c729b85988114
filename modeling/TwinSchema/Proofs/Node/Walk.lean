import Mathlib.Data.List.Nodup
import TwinSchema.Proofs.Fields
import TwinSchema.Proofs.Node.Fields
import TwinSchema.Proofs.Text.Visible

/-!
# Places of a tree

A path leads from the root of a tree to one of its nodes. A walk comes to every
node once, a node before what is below it and the children in their order, and
where no name has a sign of a step in it, the written path alone tells the node.
-/

namespace TwinSchema

open Text

namespace Node

def names : Node → List String
  | .object _ properties => properties.map Prod.fst
  | _ => []

/-- In a valid tree no node has two properties of one name. -/
theorem nodup_names_of_isValid {root : Node} (valid : root.isValid = true) :
    root.Throughout fun node => node.names.Nodup := by
  intro place member
  have valid := throughout_isValid valid place member
  generalize place.2 = node at valid ⊢
  cases node with
  | object modifiers properties => exact (isValid_object.mp valid).1
  | _ => exact List.nodup_nil

def step? : Node → Step → Option Node
  | .object _ properties, .property name => properties.lookup name
  | .array _ items, .items => items
  | .union _ (some members), .member index => members[index]?
  | _, _ => none

def follow? (node : Node) : Path → Option Node
  | [] => some node
  | step :: path => (node.step? step).bind fun child => child.follow? path

/-- The nodes directly below a node in their order, each with the step that leads
to it. -/
def branches : Node → List (Step × Node)
  | .object _ properties =>
      properties.map fun property => (.property property.1, property.2)
  | .array _ (some items) => [(.items, items)]
  | .union _ (some members) =>
      members.zipIdx.map fun member => (.member member.2, member.1)
  | _ => []

theorem map_snd_branches (node : Node) : node.branches.map Prod.snd = node.children := by
  cases node with
  | array modifiers items => cases items <;> rfl
  | object modifiers properties => simp [branches, children]
  | union modifiers members =>
      cases members with
      | none => rfl
      | some members =>
          rw [branches, List.map_map]
          exact List.zipIdx_map_fst 0 members
  | _ => rfl

theorem mem_children_of_mem_branches {node : Node} {branch : Step × Node}
    (member : branch ∈ node.branches) : branch.2 ∈ node.children := by
  rw [← map_snd_branches]
  exact List.mem_map_of_mem member

theorem mem_branches_iff {node : Node} (distinct : node.names.Nodup) {step : Step}
    {child : Node} : (step, child) ∈ node.branches ↔ node.step? step = some child := by
  cases node with
  | object modifiers properties =>
      cases step with
      | property name =>
          rw [step?, lookup_iff_mem distinct]
          simp [branches]
      | _ => simp [branches, step?]
  | array modifiers items =>
      cases items with
      | none => cases step <;> simp [branches, step?]
      | some items => cases step <;> simp [branches, step?, eq_comm]
  | union modifiers members =>
      cases members with
      | none => cases step <;> simp [branches, step?]
      | some members =>
          cases step <;> simp [branches, step?, List.mem_zipIdx_iff_getElem?]
  | _ => cases step <;> simp [branches, step?]

/-- No two branches begin with the same step. -/
theorem nodup_map_fst_branches {node : Node} (distinct : node.names.Nodup) :
    (node.branches.map Prod.fst).Nodup := by
  cases node with
  | object modifiers properties =>
      have named : Function.Injective Step.property := fun _ _ same => Step.property.inj same
      have steps := distinct.map named
      rw [names, List.map_map] at steps
      rwa [branches, List.map_map]
  | array modifiers items => cases items <;> simp [branches]
  | union modifiers members =>
      cases members with
      | none => exact List.nodup_nil
      | some members =>
          have numbered : Function.Injective Step.member := fun _ _ same => Step.member.inj same
          have steps := (List.nodup_range' (s := 0) (n := members.length)).map numbered
          rw [← List.zipIdx_map_snd, List.map_map] at steps
          rwa [branches, List.map_map]
  | _ => exact List.nodup_nil

end Node

/-- A place below a node, seen from further up. -/
def under (front : Path) (place : Path × Node) : Path × Node := (front ++ place.1, place.2)

/-- A place under a step, and the same place seen from behind the step. -/
theorem mem_map_under {step first : Step} {path : Path} {found : Node}
    {places : List (Path × Node)} :
    (step :: path, found) ∈ places.map (under [first]) ↔
      step = first ∧ (path, found) ∈ places := by
  rw [List.mem_map]
  constructor
  · rintro ⟨⟨path, found⟩, member, same⟩
    cases same
    exact ⟨rfl, member⟩
  · rintro ⟨rfl, member⟩
    exact ⟨_, member, rfl⟩

theorem walkProperties_eq (path : Path) (properties : List (String × Node)) :
    walkProperties path properties =
      properties.flatMap fun property => property.2.walkFrom (path ++ [.property property.1]) := by
  induction properties with
  | nil => rfl
  | cons property properties ih => rw [walkProperties, List.flatMap_cons, ih]

theorem walkMembers_eq (path : Path) (index : Nat) (members : List Node) :
    walkMembers path index members =
      (members.zipIdx index).flatMap fun member =>
        member.1.walkFrom (path ++ [.member member.2]) := by
  induction members generalizing index with
  | nil => rfl
  | cons node members ih => rw [walkMembers, List.zipIdx_cons, List.flatMap_cons, ih]

namespace Node

theorem walkFrom_eq (path : Path) (node : Node) :
    node.walkFrom path =
      (path, node) ::
        node.branches.flatMap fun branch => branch.2.walkFrom (path ++ [branch.1]) := by
  cases node with
  | object modifiers properties =>
      rw [walkFrom, walkProperties_eq, branches, List.flatMap_map]
  | array modifiers items => cases items <;> simp [walkFrom, branches]
  | union modifiers members =>
      cases members with
      | none => rfl
      | some members => rw [walkFrom, walkMembers_eq, branches, List.flatMap_map]
  | _ => rfl

/-- A walk that starts further down comes to the same places. -/
theorem walkFrom_append (front path : Path) (node : Node) :
    node.walkFrom (front ++ path) = (node.walkFrom path).map (under front) := by
  induction node using induction_on_children generalizing path with
  | step node ih =>
      rw [walkFrom_eq, walkFrom_eq, List.map_cons, List.map_flatMap]
      congr 1
      refine List.flatMap_congr fun branch member => ?_
      rw [List.append_assoc, ih branch.2 (mem_children_of_mem_branches member)]

/-- A walk is in depth-first order: the root, and then the walk of each branch, in the
order of the branches. -/
theorem walk_eq (node : Node) :
    node.walk =
      ([], node) ::
        node.branches.flatMap fun branch => branch.2.walk.map (under [branch.1]) := by
  rw [walk, walkFrom_eq]
  congr 1
  refine List.flatMap_congr fun branch _ => ?_
  rw [List.nil_append, walk, ← walkFrom_append, List.append_nil]

variable {root : Node}

/-- A walk comes to what the paths lead to. -/
theorem mem_walk_iff (distinct : root.Throughout fun node => node.names.Nodup)
    {path : Path} {found : Node} :
    (path, found) ∈ root.walk ↔ root.follow? path = some found := by
  induction root using induction_on_children generalizing path with
  | step root ih =>
      obtain ⟨here, further⟩ := throughout_iff.mp distinct
      rw [walk_eq, List.mem_cons, List.mem_flatMap]
      cases path with
      | nil => simp [follow?, under, eq_comm]
      | cons step path =>
          simp only [mem_map_under, follow?, Option.bind_eq_some_iff, ← mem_branches_iff here]
          constructor
          · rintro (same | ⟨⟨step, child⟩, branch, rfl, member⟩)
            · cases same
            · have inside := mem_children_of_mem_branches branch
              exact ⟨child, branch, (ih child inside (further child inside)).mp member⟩
          · rintro ⟨child, branch, followed⟩
            have inside := mem_children_of_mem_branches branch
            exact .inr ⟨(step, child), branch, rfl,
              (ih child inside (further child inside)).mpr followed⟩

/-- A walk comes to no place twice. -/
theorem nodup_map_fst_walk (distinct : root.Throughout fun node => node.names.Nodup) :
    (root.walk.map Prod.fst).Nodup := by
  induction root using induction_on_children with
  | step root ih =>
      obtain ⟨here, further⟩ := throughout_iff.mp distinct
      have split : root.walk.map Prod.fst =
          [] :: root.branches.flatMap fun branch =>
            (branch.2.walk.map Prod.fst).map fun path => branch.1 :: path := by
        rw [walk_eq, List.map_cons, List.map_flatMap]
        simp only [List.map_map]
        rfl
      rw [split, List.nodup_cons]
      constructor
      · simp
      rw [List.nodup_flatMap]
      constructor
      · intro branch member
        have inside := mem_children_of_mem_branches member
        exact (ih branch.2 inside (further branch.2 inside)).map fun _ _ same =>
          (List.cons.inj same).2
      · have apart := List.pairwise_map.mp (nodup_map_fst_branches here)
        refine apart.imp fun different => ?_
        rintro path first second
        obtain ⟨_, -, rfl⟩ := List.mem_map.mp first
        obtain ⟨_, -, same⟩ := List.mem_map.mp second
        exact different (List.cons.inj same).1.symm

end Node

/-- The signs by which steps begin. -/
def beginsStep (char : Char) : Bool := char == '.' || char == '[' || char == '|'

/-- Whether a name holds no sign of a step. -/
def isLegible (name : String) : Bool := name.toList.all fun char => !beginsStep char

/-- The step that a sign and the text behind it stand for. -/
def Step.read? (sign : Char) (label : List Char) : Option Step :=
  match sign with
  | '.' => some (.property (String.ofList label))
  | '[' => if label = [']'] then some .items else none
  | '|' =>
      if label ≠ [] ∧ label.all Char.isDigit then
        some (.member (Nat.ofDigitChars 10 label 0))
      else none
  | _ => none

/-- The steps that a text stands for, each of them from its sign to the next. -/
def readSteps : List Char → Option Path
  | [] => some []
  | sign :: rest => do
      let step ← Step.read? sign (rest.takeWhile fun char => !beginsStep char)
      let path ← readSteps (rest.dropWhile fun char => !beginsStep char)
      return step :: path
termination_by text => text.length
decreasing_by exact Nat.lt_succ_of_le (length_dropWhile _ rest)

/-- The node that a written path leads to. -/
def Node.followText? (root : Node) (text : String) : Option Node :=
  match text.toList with
  | '$' :: rest => (readSteps rest).bind root.follow?
  | _ => none

theorem toList_text (path : Path) :
    path.text.toList = '$' :: path.flatMap fun step => step.text.toList := by
  have append (front : String) : (path.foldl (fun text step => text ++ step.text) front).toList =
      front.toList ++ path.flatMap fun step => step.text.toList := by
    induction path generalizing front with
    | nil => simp
    | cons step path ih => simp [ih, List.append_assoc]
  exact append "$"

namespace Step

/-- The names that a step goes by. -/
def names : Step → List String
  | .property name => [name]
  | _ => []

/-- A step is told by its sign and by what follows up to the next one. -/
theorem exists_text {step : Step} (legible : ∀ name ∈ step.names, isLegible name = true) :
    ∃ sign label, step.text.toList = sign :: label ∧ beginsStep sign = true ∧
      (∀ char ∈ label, (!beginsStep char) = true) ∧ read? sign label = some step := by
  cases step with
  | property name =>
      refine ⟨'.', name.toList, ?_, rfl, ?_, ?_⟩
      · simp [text]
      · exact List.all_eq_true.mp (legible name List.mem_cons_self)
      · rw [read?, String.ofList_toList]
  | items => exact ⟨'[', [']'], rfl, rfl, List.all_eq_true.mp rfl, rfl⟩
  | member index =>
      have digits : (toString index).toList = Nat.toDigits 10 index := Nat.toList_repr
      have digit : ∀ char ∈ Nat.toDigits 10 index, char.isDigit = true :=
        fun char member => Nat.isDigit_of_mem_toDigits (by decide) (by decide) member
      refine ⟨'|', Nat.toDigits 10 index, ?_, rfl, ?_, ?_⟩
      · rw [text, String.toList_append, digits]
        rfl
      · intro char member
        cases sign : beginsStep char with
        | false => rfl
        | true =>
            have digit := digit char member
            simp only [beginsStep, Bool.or_eq_true, beq_iff_eq] at sign
            rcases sign with (rfl | rfl) | rfl <;> cases digit
      · rw [read?, if_pos ⟨Nat.toDigits_ne_nil, List.all_eq_true.mpr digit⟩,
          Nat.ofDigitChars_ten_toDigits]

end Step

/-- The steps of a path are read from its text where no name holds a sign. -/
theorem readSteps_text {path : Path}
    (legible : ∀ step ∈ path, ∀ name ∈ step.names, isLegible name = true) :
    readSteps (path.flatMap fun step => step.text.toList) = some path := by
  induction path with
  | nil => rw [List.flatMap_nil, readSteps]
  | cons step path ih =>
      obtain ⟨here, further⟩ := List.forall_mem_cons.mp legible
      obtain ⟨sign, label, same, -, inside, read⟩ := Step.exists_text here
      have stops : Stops (fun char => !beginsStep char)
          (path.flatMap fun step => step.text.toList) := by
        cases path with
        | nil => exact stops_nil
        | cons next path =>
            obtain ⟨sign, label, same, begins, -⟩ :=
              Step.exists_text (further next List.mem_cons_self)
            rw [List.flatMap_cons, same]
            exact stops_cons (by rw [begins]; rfl)
      rw [List.flatMap_cons, same, List.cons_append, readSteps, takeWhile_run inside stops,
        dropWhile_run inside stops, read, ih further]
      rfl

namespace Node

theorem names_of_mem_branches {node : Node} {branch : Step × Node}
    (member : branch ∈ node.branches) : ∀ name ∈ branch.1.names, name ∈ node.names := by
  cases node with
  | object modifiers properties =>
      obtain ⟨property, inside, rfl⟩ := List.mem_map.mp member
      intro name same
      obtain rfl := List.mem_singleton.mp same
      exact List.mem_map_of_mem inside
  | array modifiers items =>
      cases items with
      | none => cases member
      | some items =>
          obtain rfl := List.mem_singleton.mp member
          exact fun name none => by cases none
  | union modifiers members =>
      cases members with
      | none => cases member
      | some members =>
          obtain ⟨entry, -, rfl⟩ := List.mem_map.mp member
          exact fun name none => by cases none
  | _ => cases member

variable {root : Node}

/-- The paths of a walk go by names of the tree. -/
theorem legible_of_mem_walk
    (legible : root.Throughout fun node => ∀ name ∈ node.names, isLegible name = true) :
    ∀ place ∈ root.walk, ∀ step ∈ place.1, ∀ name ∈ step.names, isLegible name = true := by
  induction root using induction_on_children with
  | step root ih =>
      obtain ⟨here, further⟩ := throughout_iff.mp legible
      rw [walk_eq, List.forall_mem_cons]
      constructor
      · exact fun step none => by cases none
      · intro place member
        obtain ⟨branch, inside, member⟩ := List.mem_flatMap.mp member
        obtain ⟨place, later, rfl⟩ := List.mem_map.mp member
        have child := mem_children_of_mem_branches inside
        refine List.forall_mem_cons.mpr ⟨?_, ih branch.2 child (further branch.2 child) place later⟩
        exact fun name within => here name (names_of_mem_branches inside name within)

/-- The written paths of a walk differ. -/
theorem nodup_map_text_walk (distinct : root.Throughout fun node => node.names.Nodup)
    (legible : root.Throughout fun node => ∀ name ∈ node.names, isLegible name = true) :
    (root.walk.map fun place => place.1.text).Nodup := by
  have once := nodup_map_fst_walk distinct
  refine List.Nodup.map_on ?_ once.of_map
  intro place member other later same
  have steps := congrArg String.toList same
  rw [toList_text, toList_text] at steps
  have read := readSteps_text (legible_of_mem_walk legible place member)
  rw [(List.cons.inj steps).2, readSteps_text (legible_of_mem_walk legible other later)] at read
  exact List.inj_on_of_nodup_map once member later (Option.some.inj read).symm

/-- A written path leads to the node that it comes with. -/
theorem followText?_of_mem_walk (distinct : root.Throughout fun node => node.names.Nodup)
    (legible : root.Throughout fun node => ∀ name ∈ node.names, isLegible name = true)
    {place : Path × Node} (member : place ∈ root.walk) :
    root.followText? place.1.text = some place.2 := by
  rw [followText?, toList_text]
  simp only [readSteps_text (legible_of_mem_walk legible place member)]
  exact (mem_walk_iff distinct).mp member

/-- Where no node has two properties of one name, as in every valid tree, a walk begins at
the root, comes to every node once, by the path that leads to it, and goes depth first,
each branch in its turn. If no name holds a sign of a step, the written paths differ and
lead to the nodes that they come with. -/
theorem walk_places (distinct : root.Throughout fun node => node.names.Nodup) :
    (root.walk.map fun place => (place.1.text, place.2)).head? = some ("$", root) ∧
      (root.walk.map Prod.fst).Nodup ∧
      (∀ path found, (path, found) ∈ root.walk ↔ root.follow? path = some found) ∧
      root.walk = ([], root) ::
        root.branches.flatMap (fun branch => branch.2.walk.map (under [branch.1])) ∧
      ((root.Throughout fun node => ∀ name ∈ node.names, isLegible name = true) →
        (root.walk.map fun place => place.1.text).Nodup ∧
          ∀ place ∈ root.walk, root.followText? place.1.text = some place.2) := by
  refine ⟨?_, nodup_map_fst_walk distinct, fun _ _ => mem_walk_iff distinct, walk_eq root,
    fun legible => ?_⟩
  · rw [walk_eq]
    rfl
  · exact ⟨nodup_map_text_walk distinct legible,
      fun place member => followText?_of_mem_walk distinct legible member⟩

/-- An object with an empty name, a name of digits and a closing bracket for a name,
around an array of unions. -/
theorem walk_places_nested :
    let root : Node := .object {} [("", .array {} (some (.union {} (some [.any, .any])))),
      ("0", .leaf {} .string), ("]", .leaf {} .date)]
    (root.Throughout fun node => node.names.Nodup) ∧
      (root.Throughout fun node => ∀ name ∈ node.names, isLegible name = true) ∧
      root.walk.map (fun place => place.1.text) =
        ["$", "$.", "$.[]", "$.[]|0", "$.[]|1", "$.0", "$.]"] ∧
      (root.walk.map fun place => place.1.text).Nodup ∧
      ∀ place ∈ root.walk, root.followText? place.1.text = some place.2 := by
  intro root
  have valid : root.isValid = true := by decide
  have distinct := nodup_names_of_isValid valid
  have legible : ∀ place ∈ root.walk, ∀ name ∈ place.2.names, isLegible name = true := by
    decide
  obtain ⟨-, -, -, -, told⟩ := walk_places distinct
  exact ⟨distinct, legible, by decide, told legible⟩

end Node

end TwinSchema
