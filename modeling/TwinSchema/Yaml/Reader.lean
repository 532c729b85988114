import TwinSchema.Yaml.Graph
import TwinSchema.Yaml.Token

/-!
# Reading a file

A file holds at most one document, perhaps after directives and between marks.
The tokens of a document make a graph of nodes: scalars, lists and records, in
blocks or in brackets, with anchors and tags.
-/

namespace TwinSchema.Yaml

/-- What is still to be read, what handles of tags stand for, and the nodes so
far, some of them with names. -/
structure State where
  tokens : Tokens
  handles : Handles := standardHandles
  anchors : List (List Char × Nat) := []
  graph : Graph := #[]

/-- A step of reading. -/
abbrev Reading := StateT State (Except Flaw)

/-- Gives up on a file that is not well formed. -/
def malformed {α : Type} : Reading α := throw Flaw.malformed

/-- Whether the queue has to grow before its first token can be taken: it is
empty, or its first token may still turn out to begin a key. -/
def Tokens.isOpen (tokens : Tokens) : Bool :=
  tokens.queue.isEmpty ||
    (tokens.starts.map fun entry => entry.2.number).min? == some tokens.taken

/-- Reads tokens until the first one of the queue is settled. -/
def Tokens.settle : (fuel : Nat) → Tokens → Except Flaw Tokens
  | 0, tokens => .ok tokens
  | fuel + 1, tokens =>
      if tokens.ended then .ok tokens
      else do
        let current ←
          if tokens.queue.isEmpty then .ok tokens else tokens.dropStale
        if current.isOpen then settle fuel (← current.readNext)
        else return current

/-- The next token. Every token takes at least one character of the text. -/
def peek : Reading Token := do
  let state ← get
  let tokens ← state.tokens.settle (state.tokens.text.length + 1)
  set { state with tokens }
  return tokens.queue.head?.getD .fileEnd

/-- Goes on after the next token. -/
def advance : Reading Unit :=
  modify fun state =>
    { state with tokens := { state.tokens with
        queue := state.tokens.queue.drop 1, taken := state.tokens.taken + 1 } }

/-- Goes on after the next token if it is a given one. -/
def advanceOver (token : Token) : Reading Bool := do
  if (← peek) == token then
    advance
    return true
  else return false

/-- The anchor and the tag of a node. -/
structure Properties where
  anchor : Option (List Char) := none
  tag : Option WrittenTag := none
  deriving DecidableEq, Repr

def readAnchorToken : Reading (Option (List Char)) := do
  match ← peek with
  | .anchor name => advance; return some name
  | _ => return none

def readTagToken : Reading (Option WrittenTag) := do
  match ← peek with
  | .tag tag => advance; return some tag
  | _ => return none

/-- Reads the properties of a node, in either order. -/
def readProperties : Reading Properties := do
  match ← readAnchorToken with
  | some anchor => return { anchor, tag := ← readTagToken }
  | none =>
      match ← readTagToken with
      | some tag => return { tag, anchor := ← readAnchorToken }
      | none => return {}

/-- The kind that a tag stands for. A single exclamation mark stands for none.
-/
def taggedKind? : Option WrittenTag → Reading (Option Kind)
  | none => return none
  | some tag => do
      match tag.full? (← get).handles with
      | none => malformed
      | some full => return if full == ['!'] then none else some (.ofTag full)

/-- Adds a node to the graph, with a name that must be new if it has one. -/
def addNode (anchor : Option (List Char)) (kind : Kind) (body : Body) :
    Reading Nat := do
  let state ← get
  let node := state.graph.size
  let anchors ←
    match anchor with
    | none => pure state.anchors
    | some name =>
        if (state.anchors.lookup name).isSome then malformed
        else pure ((name, node) :: state.anchors)
  set { state with anchors, graph := state.graph.push ⟨kind, body⟩ }
  return node

/-- Adds the node of a collection, whose parts may refer to it. -/
def addCollection (anchor : Option (List Char)) (kind : Kind)
    (readBody : Reading Body) : Reading Nat := do
  let node ← addNode anchor kind (.list [])
  let body ← readBody
  modify fun state => { state with graph := state.graph.setBody node body }
  return node

/-- Adds a node without content. -/
def addEmpty : Reading Nat := addNode none .null (.scalar [])

/-- The node that an alias repeats. -/
def repeatNode (name : List Char) : Reading Nat := do
  match (← get).anchors.lookup name with
  | some node => return node
  | none => malformed

/-- Where a node stands: in brackets, in a block, or as a part of a record in a
block, where a list needs no block of its own. -/
inductive Place where
  | bracketed
  | block
  | part
  deriving DecidableEq, Repr

/-- Whether the spelling of a text tells its kind, unless its tag does: it has no
quotes, or an exclamation mark for a tag. -/
def isWord (plain : Bool) (tag : Option WrittenTag) : Bool :=
  plain || tag.isSome

mutual

/-- Reads a node. -/
def readNode : (fuel : Nat) → Place → Reading Nat
  | 0, _ => malformed
  | fuel + 1, place => do
      match ← peek with
      | .alias name =>
          advance
          repeatNode name
      | _ =>
          let properties ← readProperties
          let told ← taggedKind? properties.tag
          readContent fuel place properties told

def readContent : (fuel : Nat) → Place → Properties → Option Kind →
    Reading Nat
  | 0, _, _, _ => malformed
  | fuel + 1, place, properties, told => do
      let anchor := properties.anchor
      let addList := fun items =>
        addCollection anchor (told.getD .list) (Body.list <$> items)
      let addRecord := fun entries =>
        addCollection anchor (told.getD .record) (Body.record <$> entries)
      match ← peek, place with
      | .dash, .part => addList (readDashes fuel false)
      | .scalar plain text, _ =>
          advance
          let spelled :=
            if isWord plain properties.tag then Kind.ofText text else .text
          addNode anchor (told.getD spelled) (.scalar text)
      | .listStart, _ => addList (do advance; readItems fuel true)
      | .recordStart, _ => addRecord (do advance; readEntries fuel true)
      | .blockList, .block | .blockList, .part =>
          addList (do advance; readDashes fuel true)
      | .blockRecord, .block | .blockRecord, .part =>
          addRecord (do advance; readFields fuel)
      | _, _ =>
          if properties == {} then malformed
          else addNode anchor (told.getD .null) (.scalar [])

/-- Reads a node, or none before one of some tokens. -/
def readOptional : (fuel : Nat) → Place → (stops : List Token) → Reading Nat
  | 0, _, _ => malformed
  | fuel + 1, place, stops => do
      if stops.contains (← peek) then addEmpty else readNode fuel place

/-- Reads the items of a list after dashes. A list with a block of its own goes
up to the end of the block. -/
def readDashes : (fuel : Nat) → (own : Bool) → Reading (List Nat)
  | 0, _ => malformed
  | fuel + 1, own => do
      if ← advanceOver .dash then
        let stops :=
          if own then [.dash, .blockEnd]
          else [.dash, .key, .content, .blockEnd]
        let item ← readOptional fuel .block stops
        return item :: (← readDashes fuel own)
      else if !own then return []
      else if ← advanceOver .blockEnd then return []
      else malformed

/-- Reads the content of an entry after a colon, or none. -/
def readEntryContent : (fuel : Nat) → Place → (stops : List Token) →
    Reading Nat
  | 0, _, _ => malformed
  | fuel + 1, place, stops => do
      if ← advanceOver .content then readOptional fuel place stops
      else addEmpty

/-- Reads the entries of a record up to the end of its block. -/
def readFields : (fuel : Nat) → Reading (List (Nat × Nat))
  | 0 => malformed
  | fuel + 1 => do
      if ← advanceOver .key then
        let stops : List Token := [.key, .content, .blockEnd]
        let key ← readOptional fuel .part stops
        let content ← readEntryContent fuel .part stops
        return (key, content) :: (← readFields fuel)
      else if ← advanceOver .blockEnd then return []
      else malformed

/-- Reads the comma before an item or an entry that is not the first. -/
def readSeparator : (first : Bool) → Reading Unit
  | true => return
  | false => do
      if ← advanceOver .comma then return else malformed

/-- Reads the items of a list up to its closing bracket. A key makes a record of
its own. -/
def readItems : (fuel : Nat) → (first : Bool) → Reading (List Nat)
  | 0, _ => malformed
  | fuel + 1, first => do
      if ← advanceOver .listEnd then return []
      readSeparator first
      if (← peek) == .key then
        let entry ← addCollection none .record (do
          advance
          let key ← readOptional fuel .bracketed [.content, .comma, .listEnd]
          let content ← readEntryContent fuel .bracketed [.comma, .listEnd]
          return .record [(key, content)])
        return entry :: (← readItems fuel false)
      else if ← advanceOver .listEnd then return []
      else
        let item ← readNode fuel .bracketed
        return item :: (← readItems fuel false)

/-- Reads the entries of a record up to its closing bracket. -/
def readEntries : (fuel : Nat) → (first : Bool) → Reading (List (Nat × Nat))
  | 0, _ => malformed
  | fuel + 1, first => do
      if ← advanceOver .recordEnd then return []
      readSeparator first
      if ← advanceOver .key then
        let key ← readOptional fuel .bracketed [.content, .comma, .recordEnd]
        let content ← readEntryContent fuel .bracketed [.comma, .recordEnd]
        return (key, content) :: (← readEntries fuel false)
      else if ← advanceOver .recordEnd then return []
      else
        let key ← readNode fuel .bracketed
        let content ← addEmpty
        return (key, content) :: (← readEntries fuel false)

end

/-- Reads directives, with what is known from those before them. The version is
told at most once and has one as its first part, and each handle is told at most
once. -/
def readDirectives : (fuel : Nat) → (versioned : Bool) → Handles →
    Reading Handles
  | 0, _, _ => malformed
  | fuel + 1, versioned, handles => do
      match ← peek with
      | .directive (.version major) =>
          advance
          if versioned || major != 1 then malformed
          else readDirectives fuel true handles
      | .directive (.handle name first) =>
          advance
          if (handles.lookup name).isSome then malformed
          else readDirectives fuel versioned ((name, first) :: handles)
      | .directive .other =>
          advance
          readDirectives fuel versioned handles
      | _ => return handles

/-- Passes over marks that end documents. -/
def skipEnds : (fuel : Nat) → Reading Unit
  | 0 => return
  | fuel + 1 => do
      if ← advanceOver .documentEnd then skipEnds fuel

/-- The tokens before which a document is empty. -/
def endsDocument : Token → Bool
  | .directive _ | .documentStart | .documentEnd | .fileEnd => true
  | _ => false

/-- Reads the directives of a document and the mark at its beginning. -/
def readStart (fuel : Nat) : Reading Unit := do
  let handles ← readDirectives fuel false []
  if ← advanceOver .documentStart then
    modify fun state => { state with handles := handles ++ standardHandles }
  else malformed

/-- Reads a document, if there is one: its outermost node. -/
def readDocument (fuel : Nat) : Reading (Option Nat) := do
  match ← peek with
  | .fileEnd => return none
  | .directive _ | .documentStart =>
      readStart fuel
      if endsDocument (← peek) then return some (← addEmpty)
      else return some (← readNode fuel .block)
  | _ => return some (← readNode fuel .block)

/-- Reads the end of a file, where no other document may begin. -/
def readFileEnd (fuel : Nat) : Reading Unit := do
  skipEnds fuel
  if (← peek) != .fileEnd then
    readStart fuel
    malformed

/-- The nodes of a file and the outermost of them, if there is any. -/
def readGraph (text : List Char) : Except Flaw (Graph × Option Nat) := do
  if !text.all isAdmitted then throw .malformed
  let fuel := 20 * (text.length + 2)
  let reading : Reading (Option Nat) := do
    let node ← readDocument fuel
    readFileEnd fuel
    return node
  let (node, state) ← reading.run { tokens := { text := glyphs text } }
  return (state.graph, node)

end TwinSchema.Yaml
