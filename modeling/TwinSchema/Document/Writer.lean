import TwinSchema.Document.Field
import TwinSchema.Json.Writer
import TwinSchema.Node.Basic
import TwinSchema.Text.Blank

/-!
# Writing schema documents

A node becomes a record whose fields stand in a fixed order. The record can be
written plainly, or with the description of every node repeated in a comment at
the top of its record.
-/

namespace TwinSchema.Document

open Json
open Text (lineBreak)

/-- A record for a node of a kind, where `body` holds the fields that only this
kind has. -/
def nodeRecord (kind : Kind) (modifiers : Modifiers)
    (body : List (String × Value)) : Value :=
  .record (("type", .text kind.name) ::
    (match modifiers.description with
      | some description => [("description", .text description)]
      | none => []) ++
    body ++
    (if modifiers.nullable then [("nullable", .bool true)] else []) ++
    (if modifiers.optional then [("optional", .bool true)] else []))

mutual

def ofNode : Node → Value
  | .leaf modifiers kind => nodeRecord (.leaf kind) modifiers []
  | .literal modifiers value =>
      nodeRecord .literal modifiers [("const", .scalar value)]
  | .enumeration modifiers choices =>
      nodeRecord .enumeration modifiers
        [("enum", .list ((choices.getD []).map fun choice =>
          .scalar choice.toScalar))]
  | .array modifiers none => nodeRecord .array modifiers []
  | .array modifiers (some items) =>
      nodeRecord .array modifiers [("items", ofNode items)]
  | .object modifiers properties =>
      nodeRecord .object modifiers
        [("properties", .record (ofProperties properties))]
  | .union modifiers none => nodeRecord .union modifiers [("oneOf", .list [])]
  | .union modifiers (some members) =>
      nodeRecord .union modifiers [("oneOf", .list (ofMembers members))]

/-- Properties as the fields of a record. -/
def ofProperties : List (String × Node) → List (String × Value)
  | [] => []
  | (name, node) :: rest => (name, ofNode node) :: ofProperties rest

def ofMembers : List Node → List Value
  | [] => []
  | node :: rest => ofNode node :: ofMembers rest

end

/-- The plain text of a node's document. -/
def writePlain (step : Int) (node : Node) : List Char :=
  Json.write step (ofNode node)

/-- A description as one line. -/
def commentText (description : String) : List Char :=
  [' '].intercalate (Text.lines description.toList)

/-- The comment line of a description, where one is due. -/
def commentLine (step : Int) (level : Nat) : Option String → List Char
  | none => []
  | some description =>
      if description.isEmpty then []
      else lineBreak step level ++ '/' :: '/' :: ' ' :: commentText description

def writtenField (name : String) (content : List Char) : List Char :=
  writeText name ++ ':' :: ' ' :: content

/-- The written record of a node, its comment first, where `body` holds the
written fields that only this kind has. -/
def commentedRecord (step : Int) (level : Nat) (kind : Kind)
    (modifiers : Modifiers) (body : List (List Char)) : List Char :=
  let fields :=
    (match modifiers.description with
      | some description =>
          [writtenField "description" (writeText description)]
      | none => []) ++
    body ++
    (if modifiers.nullable then [writtenField "nullable" "true".toList] else []) ++
    (if modifiers.optional then [writtenField "optional" "true".toList] else [])
  '{' :: commentLine step (level + 1) modifiers.description ++
    lineBreak step (level + 1) ++ writtenField "type" (writeText kind.name) ++
    fields.flatMap (fun field => ',' :: lineBreak step (level + 1) ++ field) ++
    lineBreak step level ++ ['}']

mutual

/-- A node at a nesting level, with comments. -/
def commentedNode (step : Int) (level : Nat) : Node → List Char
  | .leaf modifiers kind => commentedRecord step level (.leaf kind) modifiers []
  | .literal modifiers value =>
      commentedRecord step level .literal modifiers
        [writtenField "const" (writeScalar value)]
  | .enumeration modifiers choices =>
      commentedRecord step level .enumeration modifiers
        [writtenField "enum" (bracketed '[' ']' step (level + 1)
          ((choices.getD []).map fun choice => writeScalar choice.toScalar))]
  | .array modifiers none => commentedRecord step level .array modifiers []
  | .array modifiers (some items) =>
      commentedRecord step level .array modifiers
        [writtenField "items" (commentedNode step (level + 1) items)]
  | .object modifiers properties =>
      commentedRecord step level .object modifiers
        [writtenField "properties" (bracketed '{' '}' step (level + 1)
          (commentedProperties step (level + 2) properties))]
  | .union modifiers none =>
      commentedRecord step level .union modifiers
        [writtenField "oneOf" (bracketed '[' ']' step (level + 1) [])]
  | .union modifiers (some members) =>
      commentedRecord step level .union modifiers
        [writtenField "oneOf" (bracketed '[' ']' step (level + 1)
          (commentedMembers step (level + 2) members))]

def commentedProperties (step : Int) (level : Nat) :
    List (String × Node) → List (List Char)
  | [] => []
  | (name, node) :: rest =>
      writtenField name (commentedNode step level node) ::
        commentedProperties step level rest

def commentedMembers (step : Int) (level : Nat) :
    List Node → List (List Char)
  | [] => []
  | node :: rest =>
      commentedNode step level node :: commentedMembers step level rest

end

/-- The text of a node's document with a comment for every description. -/
def writeCommented (step : Int) (node : Node) : List Char :=
  commentedNode step 0 node

/-- The text of a node's document. -/
def write (comments : Bool) (step : Int) (node : Node) : List Char :=
  if comments then writeCommented step node else writePlain step node

end TwinSchema.Document
