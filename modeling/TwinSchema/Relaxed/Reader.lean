import TwinSchema.Fault
import TwinSchema.Json.Reader
import TwinSchema.Relaxed.Comment
import TwinSchema.Relaxed.Repair
import TwinSchema.Text.Position

/-!
# Reading relaxed documents

A relaxed document is JSON with comments and the usual slips of hand. It is read
as strict JSON after the regular repairs; if that fails, once more after the
bold ones. A failure is told as the first reading met it.
-/

namespace TwinSchema.Relaxed

/-- Why a document could not be decoded. An integer of too many digits is
refused outright: no repair is tried on it. -/
inductive Refusal where
  | malformed (detail : Malformed)
  | longInteger (digits : Nat)
  deriving DecidableEq, Repr

/-- A refusal as the end of a conversion. -/
def Refusal.toFailure : Refusal → Failure
  | .malformed detail => .fault (.malformed detail)
  | .longInteger digits => .breakdown (.longInteger digits)

/-- A text with nothing in it. -/
def emptyDocument : Malformed where
  reason := "Document is empty"
  line := some 1
  column := some 1

/-- A mistake told by its position in the text that was read. -/
def locate (text : List Char) (mistake : Json.Mistake) : Malformed :=
  let offset := mistake.offset text
  let position := Text.Position.ofOffset text offset
  { reason := mistake.reason.message
    line := some position.line
    column := some position.column
    excerpt := some
      (String.ofList (Text.excerpt text offset Text.excerptRadius)) }

/-- Decodes a text after its comments are removed. -/
def decodeClean (cleaned : List Char) : Except Refusal Json.Value :=
  let normalized := normalize cleaned
  match Json.read normalized with
  | .ok value => .ok value
  | .error (.longInteger digits) => .error (.longInteger digits)
  | .error (.mistake mistake) =>
      match Json.read (normalizeBoldly cleaned) with
      | .ok value => .ok value
      | .error (.longInteger digits) => .error (.longInteger digits)
      | .error (.mistake _) => .error (.malformed (locate normalized mistake))

/-- Decodes a relaxed document. -/
def decode (text : List Char) : Except Refusal Json.Value :=
  if Text.allBlank text then .error (.malformed emptyDocument)
  else decodeClean (stripComments Text.documentQuotes text)

end TwinSchema.Relaxed
