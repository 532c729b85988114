import TwinSchema.Document.Reader
import TwinSchema.Rendering
import TwinSchema.Settings.Basic
import TwinSchema.Source.Reader

/-!
# Conversions

Source text becomes a document, and a document becomes source text. A fault is
part of the outcome; only a breakdown leaves a conversion without one.
-/

namespace TwinSchema

inductive Direction where
  | sourceToDocument
  | documentToSource
  deriving DecidableEq, Repr

namespace Direction

def name : Direction → String
  | .sourceToDocument => "source-to-document"
  | .documentToSource => "document-to-source"

def ofName? (name : String) : Option Direction :=
  [sourceToDocument, documentToSource].find? fun direction =>
    direction.name == name

def reverse : Direction → Direction
  | .sourceToDocument => .documentToSource
  | .documentToSource => .sourceToDocument

end Direction

/-- A schema and its text in the other form. -/
structure Converted where
  node : Node
  output : List Char
  deriving Repr

structure Outcome where
  direction : Direction
  result : Except Fault Converted

namespace Outcome

/-- The text that a conversion gives: nothing if it failed. -/
def output (outcome : Outcome) : String :=
  match outcome.result with
  | .ok converted => String.ofList converted.output
  | .error _ => ""

/-- The schema that was converted, if it could be read. -/
def node? (outcome : Outcome) : Option Node :=
  match outcome.result with
  | .ok converted => some converted.node
  | .error _ => none

def fault? (outcome : Outcome) : Option Fault :=
  match outcome.result with
  | .ok _ => none
  | .error fault => some fault

def toRecord (outcome : Outcome) : Json.Value :=
  .record
    [("direction", .text outcome.direction.name),
      ("ok", .bool outcome.fault?.isNone),
      ("output", .text outcome.output),
      ("error", (outcome.fault?.map Fault.toRecord).getD .null)]

end Outcome

/-- Reads a schema in the form that a direction starts from. -/
def Direction.read : Direction → List Char → Except Failure Node
  | .sourceToDocument => Source.read
  | .documentToSource => Document.read

/-- The renderer that a direction ends with. Settings decide about comments
unless that is done here. -/
def Direction.renderer (direction : Direction) (settings : Settings)
    (comments : Option Bool) : Renderer :=
  match direction with
  | .sourceToDocument =>
      .document (comments.getD settings.includeComments) settings.indent.val
  | .documentToSource =>
      .source settings.reindentSource settings.indent.val

/-- Converts a text. -/
def convert (settings : Settings) (direction : Direction)
    (comments : Option Bool) (text : List Char) : Except Breakdown Outcome :=
  match direction.read text with
  | .ok node =>
      let renderer := direction.renderer settings comments
      .ok ⟨direction, .ok ⟨node, renderer.render node⟩⟩
  | .error (.fault fault) => .ok ⟨direction, .error fault⟩
  | .error (.breakdown breakdown) => .error breakdown

/-- The direction that suits a text: one that looks like a schema document is a
document, anything else is source. -/
def detectDirection (text : List Char) : Except Breakdown Direction :=
  (Document.recognize text).map fun document =>
    if document then .documentToSource else .sourceToDocument

/-- Converts a text with the standard settings to the text in the other form. -/
def convertText (direction : Direction) (comments : Option Bool)
    (text : List Char) : Except Failure (List Char) :=
  match convert {} direction comments text with
  | .error breakdown => .error (.breakdown breakdown)
  | .ok outcome =>
      match outcome.result with
      | .ok converted => .ok converted.output
      | .error fault => .error (.fault fault)

/-- Converts a text to and fro: each conversion takes the output of the one
before it. The first failure is the last outcome. -/
def pipeline (comments : Bool) : Direction → (steps : Nat) → List Char →
    List (Except Failure (List Char))
  | _, 0, _ => []
  | direction, steps + 1, text =>
      match convertText direction (some comments) text with
      | .error failure => [.error failure]
      | .ok output => .ok output :: pipeline comments direction.reverse steps output

end TwinSchema
