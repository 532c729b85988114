import TwinSchema.Document.Writer
import TwinSchema.Fields
import TwinSchema.Source.Writer

/-!
# Rendering

A schema can be rendered in two formats. A registry says which renderer serves
which format; a renderer is set up by options, of which each takes only some.
-/

namespace TwinSchema

inductive Format where
  | document
  | source
  deriving DecidableEq, Repr

namespace Format

def name : Format → String
  | .document => "document"
  | .source => "zod"

def ofName? (name : String) : Option Format :=
  [document, source].find? fun format => format.name == name

end Format

/-- A renderer that is ready for use. -/
inductive Renderer where
  | document (comments : Bool) (step : Int)
  | source (laidOut : Bool) (step : Int)
  deriving DecidableEq, Repr

namespace Renderer

/-- The number of blanks per nesting level. -/
def step : Renderer → Int
  | .document _ step => step
  | .source _ step => step

def format : Renderer → Format
  | .document _ _ => .document
  | .source _ _ => .source

def render : Renderer → Node → List Char
  | .document comments step, node => Document.write comments step node
  | .source laidOut step, node => Source.write laidOut step node

end Renderer

/-- Options for a renderer, as far as they are given. -/
structure RenderOptions where
  comments : Option Bool := none
  laidOut : Option Bool := none
  step : Option Int := none
  deriving DecidableEq, Repr

/-- The renderer that makes a format, set up by options. One that it does not
take makes it unavailable. -/
def Format.renderer? (format : Format) (options : RenderOptions) :
    Option Renderer :=
  match format, options.comments, options.laidOut with
  | .document, comments, none =>
      some (.document (comments.getD true) (options.step.getD 2))
  | .source, none, laidOut =>
      some (.source (laidOut.getD true) (options.step.getD 2))
  | _, _, _ => none

/-- Which renderer serves which format; a renderer is told by the format that it
makes. -/
structure Registry where
  entries : List (Format × Format)
  deriving DecidableEq, Repr

namespace Registry

/-- Every format is served by its own renderer. -/
def standard : Registry :=
  ⟨[(.document, .document), (.source, .source)]⟩

/-- The registry after a format has been given another renderer. -/
def register (registry : Registry) (format maker : Format) : Registry :=
  ⟨setField format maker registry.entries⟩

/-- The renderer that serves a format. -/
def get? (registry : Registry) (format : Format) : Option Format :=
  registry.entries.lookup format

def formats (registry : Registry) : List Format :=
  registry.entries.map Prod.fst

end Registry

end TwinSchema
