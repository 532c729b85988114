import TwinSchema.Node.Basic

/-!
# Walking a schema

The nodes of a tree in order, each with the path that leads to it.
-/

namespace TwinSchema

/-- One step down a tree: into a property, into the items of an array, or into a
member of a union. -/
inductive Step where
  | property (name : String)
  | items
  | member (index : Nat)
  deriving DecidableEq, Repr

/-- The written form of a step. -/
def Step.text : Step → String
  | .property name => "." ++ name
  | .items => "[]"
  | .member index => "|" ++ toString index

/-- The way from the root to a node. -/
abbrev Path := List Step

/-- The written form of a path. The root is a dollar sign. -/
def Path.text (path : Path) : String :=
  path.foldl (fun text step => text ++ step.text) "$"

mutual

/-- A node and everything below it, depth first, where `path` leads to the
node. -/
def Node.walkFrom (path : Path) : Node → List (Path × Node)
  | node@(.array _ (some items)) =>
      (path, node) :: items.walkFrom (path ++ [.items])
  | node@(.object _ properties) => (path, node) :: walkProperties path properties
  | node@(.union _ (some members)) => (path, node) :: walkMembers path 0 members
  | node => [(path, node)]

/-- The properties of a node in order, each with everything below it. -/
def walkProperties (path : Path) : List (String × Node) → List (Path × Node)
  | [] => []
  | (name, node) :: rest =>
      node.walkFrom (path ++ [.property name]) ++ walkProperties path rest

/-- The members of a union from an index on, each with everything below it. -/
def walkMembers (path : Path) (index : Nat) : List Node → List (Path × Node)
  | [] => []
  | node :: rest =>
      node.walkFrom (path ++ [.member index]) ++
        walkMembers path (index + 1) rest

end

/-- Every node of a tree with its path, the root first. -/
def Node.walk (node : Node) : List (Path × Node) :=
  node.walkFrom []

end TwinSchema
