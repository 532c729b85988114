import TwinSchema.Yaml.Kind
import TwinSchema.Yaml.Flaw

/-!
# Graphs of nodes

The nodes of a file refer to each other by number, since an alias makes a node a
part of several others, and even of itself. A record may take over the entries
of others, which changes the graph.
-/

namespace TwinSchema.Yaml

/-- What a node holds: a text, or the numbers of other nodes. -/
inductive Body where
  | scalar (text : List Char)
  | list (items : List Nat)
  | record (entries : List (Nat × Nat))
  deriving DecidableEq, Repr

/-- A node: its kind, which need not suit what it holds. -/
structure Node where
  kind : Kind
  body : Body
  deriving DecidableEq, Repr

/-- The nodes of a file by their numbers. -/
abbrev Graph := Array Node

namespace Graph

def kind (graph : Graph) (node : Nat) : Kind :=
  (graph[node]?.map Node.kind).getD .unknown

/-- What a node holds. -/
def body (graph : Graph) (node : Nat) : Body :=
  (graph[node]?.map Node.body).getD (.scalar [])

/-- Changes what a node holds. -/
def setBody (graph : Graph) (node : Nat) (body : Body) : Graph :=
  graph.modify node fun known => { known with body }

def setText (graph : Graph) (node : Nat) : Graph :=
  graph.modify node fun known => { known with kind := .text }

/-- The text of a node. A record that gives a content to itself has the text of
that content. Only so many contents are followed as `fuel` tells, since a record
may give itself to itself. -/
def text (graph : Graph) : (fuel : Nat) → (node : Nat) →
    Except Flaw (List Char)
  | 0, _ => .error .endless
  | fuel + 1, node =>
      match graph.body node with
      | .scalar text => .ok text
      | .list _ => .error .malformed
      | .record entries =>
          match entries.find? fun entry => graph.kind entry.1 == .selfMark with
          | none => .error .malformed
          | some entry => graph.text fuel entry.2

def entries? (graph : Graph) (node : Nat) : Option (List (Nat × Nat)) :=
  match graph.body node with
  | .record entries => some entries
  | _ => none

def entries (graph : Graph) (node : Nat) : Except Flaw (List (Nat × Nat)) :=
  match graph.entries? node with
  | some entries => .ok entries
  | none => .error .malformed

/-- Removes the first entry of a record that merges others into it. The result
is what it merges, if there is such an entry. -/
def takeMerge (graph : Graph) (node : Nat) : Graph × Option Nat :=
  match graph.body node with
  | .record entries =>
      let own := entries.takeWhile fun entry => graph.kind entry.1 != .mergeMark
      match entries.drop own.length with
      | [] => (graph, none)
      | (_, source) :: rest =>
          (graph.setBody node (.record (own ++ rest)), some source)
  | _ => (graph, none)

/-- Puts merged entries in front of those of a record. Its key that stands for
the record itself becomes a text. -/
def finishMerge (graph : Graph) (node : Nat) (merged : List (Nat × Nat)) :
    Graph :=
  match graph.body node with
  | .record entries =>
      let named := entries.foldl (fun graph entry =>
        if graph.kind entry.1 == .selfMark then graph.setText entry.1
        else graph) graph
      named.setBody node (.record (merged ++ entries))
  | _ => graph

/-- The number of entries in all records, which bounds how often entries are
merged. -/
def entryCount (graph : Graph) : Nat :=
  graph.toList.foldl (fun count node =>
    match node.body with
    | .record entries => count + entries.length
    | _ => count) 0

mutual

/-- Merges into a record what its entries say, after the entries that are merged
already. Each record that is merged is itself treated so before. -/
def mergeFrom : (fuel : Nat) → (node : Nat) → (merged : List (Nat × Nat)) →
    Graph → Except Flaw Graph
  | 0, _, _, _ => .error .malformed
  | fuel + 1, node, merged, graph =>
      match graph.takeMerge node with
      | (graph, none) => .ok (graph.finishMerge node merged)
      | (graph, some source) => do
          let (found, graph) ← mergedEntries fuel source graph
          mergeFrom fuel node (merged ++ found) graph

/-- The entries that a node merges into a record: its own, or those of every
record in a list, of which the last come first. -/
def mergedEntries : (fuel : Nat) → (source : Nat) → Graph →
    Except Flaw (List (Nat × Nat) × Graph)
  | 0, _, _ => .error .malformed
  | fuel + 1, source, graph =>
      match graph.body source with
      | .scalar _ => .error .malformed
      | .record _ => do
          let graph ← mergeFrom fuel source [] graph
          return (← graph.entries source, graph)
      | .list items =>
          items.foldlM (fun (found, graph) item => do
            let _ ← graph.entries item
            let graph ← mergeFrom fuel item [] graph
            return ((← graph.entries item) ++ found, graph)) ([], graph)

end

/-- Merges into a record what its entries say. -/
def merge (graph : Graph) (node : Nat) : Except Flaw Graph :=
  mergeFrom (2 * graph.entryCount + 2) node [] graph

end Graph

end TwinSchema.Yaml
