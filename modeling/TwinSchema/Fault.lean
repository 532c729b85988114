import TwinSchema.Json.Token
import TwinSchema.Text.Position

/-!
# Faults

Why a conversion fails. A fault is a value; its name, its text and its record
form are what people and programs see of it. A breakdown is no fault of that
kind: it ends the conversion without a result.
-/

namespace TwinSchema

/-- A document text that cannot be decoded: what is wrong, where, and the text
around that place. -/
structure Malformed where
  reason : String
  line : Option Int := none
  column : Option Int := none
  excerpt : Option String := none
  deriving DecidableEq, Repr

/-- A failed conversion. -/
inductive Fault where
  | general (message : String)
  | unrecognized (problem : String)
  | malformed (detail : Malformed)
  | invalidDocument (problem path : String)
  | unsupported (message : String)
  | settings (message : String)
  deriving DecidableEq, Repr

/-- The reason together with its position, when line and column are both known,
and the excerpt on a line of its own, when there is one. -/
def Malformed.text (detail : Malformed) : String :=
  let located :=
    match detail.line, detail.column with
    | some line, some column =>
        s!"{detail.reason} (line {line}, column {column})"
    | _, _ => detail.reason
  match detail.excerpt with
  | none => located
  | some excerpt =>
      if excerpt.isEmpty then located else located ++ "\n" ++ excerpt

namespace Fault

/-- The advice that goes with every unrecognized schema. -/
def guidance : String :=
  "Make sure you're providing a valid schema. For complex schemas with " ++
  "imports, ensure there is an exported schema using " ++
  "\"export const YourSchema = ...\""

/-- The problem of source text in which no schema is found. -/
def nothingFound : String :=
  "Couldn't find a valid Zod schema in the provided code"

/-- The problem of source text without any code. -/
def nothingGiven : String :=
  "Please enter a Zod schema to convert"

def name : Fault → String
  | .general _ => "ConversionError"
  | .unrecognized _ => "UnrecognizedSchema"
  | .malformed _ => "MalformedInput"
  | .invalidDocument _ _ => "InvalidSchemaDocument"
  | .unsupported _ => "UnsupportedConstruct"
  | .settings _ => "ConfigError"

def text : Fault → String
  | .general message => message
  | .unrecognized problem => s!"{problem}. {guidance}"
  | .malformed detail => detail.text
  | .invalidDocument problem path => s!"{path}: {problem}"
  | .unsupported message => message
  | .settings message => message

/-- The message inside a fault's record, which tells the reason alone where the
record has fields of its own for the position. -/
def message : Fault → String
  | .malformed detail => detail.reason
  | fault => fault.text

/-- A number that may be missing. -/
def optionalInteger : Option Int → Json.Value
  | none => .null
  | some number => .integer number

/-- The fields that only some faults have. -/
def details : Fault → List (String × Json.Value)
  | .malformed detail =>
      [("line", optionalInteger detail.line),
        ("column", optionalInteger detail.column),
        ("excerpt", (detail.excerpt.map Json.Value.text).getD .null)]
  | .invalidDocument _ path => [("path", .text path)]
  | _ => []

def toRecord (fault : Fault) : Json.Value :=
  .record (("error", .text fault.name) :: ("message", .text fault.message) ::
    fault.details)

end Fault

/-- What ends a conversion without a result: a property key that is no readable
text, and an integer of too many digits. Texts and nodes may be nested to any
depth: how far the stack of a machine carries a recursion is left out. -/
inductive Breakdown where
  | unreadableKey (reason : Json.Reason) (offset : Nat)
      (position : Text.Position)
  | longInteger (digits : Nat)
  deriving DecidableEq, Repr

def Breakdown.text : Breakdown → String
  | .unreadableKey reason offset position =>
      reason.message ++ s!": line {position.line} column {position.column} " ++
        s!"(char {offset})"
  | .longInteger digits =>
      s!"Exceeds the limit ({Json.integerDigitLimit} digits) for integer " ++
        s!"string conversion: value has {digits} digits"

/-- Why a text gives no node. -/
inductive Failure where
  | fault (fault : Fault)
  | breakdown (breakdown : Breakdown)
  deriving DecidableEq, Repr

end TwinSchema
