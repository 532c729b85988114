import TwinSchema.Json.Writer
import TwinSchema.Node.Basic
import TwinSchema.Source.Layout
import TwinSchema.Text.Word

/-!
# Writing source text

A node becomes a chain of calls: a constructor for its kind, then one link for
each of its modifiers.
-/

namespace TwinSchema.Source

open Json (writeScalar writeText)

/-- A property key: bare where it is an identifier, otherwise quoted. -/
def writeKey (name : String) : List Char :=
  if Text.isIdentifier name then name.toList else writeText name

def call (constructor : String) (argument : List Char) : List Char :=
  'z' :: '.' :: constructor.toList ++ '(' :: argument ++ [')']

def link (name : String) (argument : List Char) : List Char :=
  '.' :: name.toList ++ '(' :: argument ++ [')']

def modifierLinks (modifiers : Modifiers) : List Char :=
  (if modifiers.nullable then link "nullable" [] else []) ++
  (if modifiers.optional then link "optional" [] else []) ++
  (match modifiers.description with
    | some description => link "description" (writeText description)
    | none => [])

/-- Entries with a comma and a blank between them. -/
def entries (texts : List (List Char)) : List Char :=
  [',', ' '].intercalate texts

def callList (constructor : String) (items : List (List Char)) : List Char :=
  call constructor ('[' :: entries items ++ [']'])

/-- The call that accepts anything. -/
def callAny : List Char := call "any" []

mutual

/-- A node on one line. A kind without a constructor of its own, and a union
without members, accept anything. -/
def writeFlat : Node → List Char
  | .leaf modifiers kind =>
      (if kind.isPrimitive then call kind.name [] else callAny) ++
        modifierLinks modifiers
  | .literal modifiers value =>
      call "literal" (writeScalar value) ++ modifierLinks modifiers
  | .enumeration modifiers choices =>
      callList "enum"
          ((choices.getD []).map fun choice => writeScalar choice.toScalar) ++
        modifierLinks modifiers
  | .array modifiers none => call "array" callAny ++ modifierLinks modifiers
  | .array modifiers (some items) =>
      call "array" (writeFlat items) ++ modifierLinks modifiers
  | .object modifiers properties =>
      call "object" ('{' :: entries (writeProperties properties) ++ ['}']) ++
        modifierLinks modifiers
  | .union modifiers (some (member :: rest)) =>
      callList "union" (writeFlat member :: writeMembers rest) ++
        modifierLinks modifiers
  | .union modifiers _ => callAny ++ modifierLinks modifiers

/-- Properties with their keys, each on one line. -/
def writeProperties : List (String × Node) → List (List Char)
  | [] => []
  | (name, node) :: rest =>
      (writeKey name ++ ':' :: ' ' :: writeFlat node) :: writeProperties rest

def writeMembers : List Node → List (List Char)
  | [] => []
  | node :: rest => writeFlat node :: writeMembers rest

end

/-- The source text of a node, laid out over several lines where asked for. -/
def write (laidOut : Bool) (step : Int) (node : Node) : List Char :=
  if laidOut then reindent step (writeFlat node) else writeFlat node

end TwinSchema.Source
