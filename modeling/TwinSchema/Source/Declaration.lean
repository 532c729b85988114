import TwinSchema.Source.Bracket
import TwinSchema.Source.Preamble

/-!
# Declarations of schemas

A schema is declared by a name, perhaps with a type annotation, and an
expression that begins with the letter z and a dot.
-/

namespace TwinSchema.Source

open Text

/-- The text after a type annotation, if there is one. An annotation holds
neither an equals sign nor a semicolon. -/
def annotation? : List Char → Option (List Char)
  | [] => some []
  | char :: rest =>
      if char = ':' then
        let inside := fun char : Char => char != '=' && char != ';'
        if (rest.takeWhile inside).isEmpty then none
        else some (rest.dropWhile inside)
      else some (char :: rest)

/-- Whether an expression begins with the letter z and a dot. -/
def beginsSchema (text : List Char) : Bool :=
  match dropChar? 'z' text with
  | some rest => (dropChar? '.' (trimLeft rest)).isSome
  | none => false

def rightSide? (text : List Char) : Option (List Char) := do
  let rest ← declaringWord? text
  let rest ← blanks? rest
  let (_, rest) ← name? rest
  let rest ← annotation? (trimLeft rest)
  let rest ← dropChar? '=' rest
  let rest := trimLeft rest
  if beginsSchema rest then some rest else none

def exportedRightSide? (text : List Char) : Option (List Char) := do
  let rest ← dropWord? "export".toList text
  let rest ← blanks? rest
  rightSide? rest

/-- The first place in a text where a form matches, as what the form finds
there. -/
def search? (form : List Char → Option (List Char)) :
    List Char → Option (List Char)
  | [] => none
  | char :: rest =>
      match form (char :: rest) with
      | some found => some found
      | none => search? form rest

/-- The expression of the first exported declaration. -/
def exportedDeclaration? (text : List Char) : Option (List Char) :=
  (search? exportedRightSide? text).map (statement .code 0)

/-- The expression of the first declaration. -/
def declaration? (text : List Char) : Option (List Char) :=
  (search? rightSide? text).map (statement .code 0)

end TwinSchema.Source
