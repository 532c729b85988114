import TwinSchema.Yaml.Reader
import TwinSchema.Yaml.Scalar

/-!
# The content of a file

The nodes of a file as values. A collection is opened only after those that were
met before it, so that one may be a part of itself; the outermost comes first.
-/

namespace TwinSchema.Yaml

/-- What a file contains: a value, or the fields of a record in their order. Of
the collections in a file only the outermost is kept with its parts. -/
inductive Content where
  | value (value : Value)
  | record (fields : List (Value × Value))
  deriving DecidableEq, Repr

/-- The nodes of a file, the collections that are still to be opened, and the
values of the nodes that were met. -/
structure Opening where
  graph : Graph
  waiting : List Nat := []
  known : List (Nat × Value) := []

/-- A step of opening. -/
abbrev Opened := StateT Opening (Except Flaw)

namespace Kind

def isCollection (kind : Kind) : Bool :=
  [.list, .pairs, .set, .record].contains kind

/-- The kinds of values without parts. -/
def isScalar (kind : Kind) : Bool :=
  [.null, .truth, .integer, .float, .octets, .moment, .text].contains kind

end Kind

/-- The value of a node that is no collection. A moment must not only have a
text but be one. -/
def Graph.value (graph : Graph) (node : Nat) : Except Flaw Value := do
  if !(graph.kind node).isScalar then throw .malformed
  let text ← graph.text (graph.size + 1) node
  if graph.kind node == .moment && (graph.entries? node).isSome then
    throw .momentOfRecord
  (graph.kind node).read text

/-- The value of a node. Each node has one value, which it keeps; a collection
is opened later. -/
def meet (node : Nat) : Opened Value := do
  let opening ← get
  match opening.known.lookup node with
  | some value => return value
  | none =>
      let value ←
        if (opening.graph.kind node).isCollection then pure Value.collection
        else opening.graph.value node
      let waiting :=
        if value = .collection then opening.waiting ++ [node]
        else opening.waiting
      set { opening with waiting, known := (node, value) :: opening.known }
      return value

/-- Meets the key and the content of an entry. No collection is a key. -/
def meetField (entry : Nat × Nat) : Opened (Value × Value) := do
  let key ← meet entry.1
  if key = .collection then throw Flaw.malformed
  return (key, ← meet entry.2)

/-- Opens a record: its fields, together with those that are merged into it. -/
def openRecord (node : Nat) : Opened (List (Value × Value)) := do
  let _ ← (← get).graph.entries node
  let graph ← (← get).graph.merge node
  modify fun opening => { opening with graph }
  (← graph.entries node).mapM meetField

/-- Opens a pair: a record with one entry, whose key may be a collection. -/
def openPair (node : Nat) : Opened Unit := do
  match ← (← get).graph.entries node with
  | [(key, content)] =>
      let _ ← meet key
      let _ ← meet content
  | _ => throw Flaw.malformed

def openCollection (node : Nat) : Opened Unit := do
  let graph := (← get).graph
  match graph.kind node, graph.body node with
  | .list, .list items => items.forM fun item => discard (meet item)
  | .pairs, .list items => items.forM openPair
  | .record, _ | .set, _ => discard (openRecord node)
  | _, _ => throw Flaw.malformed

/-- Opens the collections that wait, in their order. -/
def openWaiting : (fuel : Nat) → Opened Unit
  | 0 => return
  | fuel + 1 => do
      let opening ← get
      match opening.waiting with
      | [] => return
      | node :: waiting =>
          set { opening with waiting }
          openCollection node
          openWaiting fuel

/-- Opens the outermost node and all nodes that it leads to. -/
def openRoot (node : Nat) : Opened Content := do
  let value ← meet node
  let opening ← get
  let content ←
    if value = .collection && opening.graph.kind node == .record then
      set { opening with waiting := [] }
      Content.record <$> openRecord node
    else pure (.value value)
  openWaiting opening.graph.size
  return content

/-- What a file contains: null if there is nothing in it. -/
def read (text : List Char) : Except Flaw Content := do
  match ← readGraph text with
  | (_, none) => return .value (.plain .null)
  | (graph, some node) =>
      let (content, _) ← (openRoot node).run { graph }
      return content

end TwinSchema.Yaml
