/-!
# Markup

A text for the console may carry style tags in brackets. What is shown is the
text without them; a backslash keeps a tag as text.
-/

namespace TwinSchema.Console

/-- A part of a text: a character, a bracket that opens no tag, or a tag. The
backslashes directly before a bracket belong to it. -/
inductive Piece where
  | plain (char : Char)
  | bracket (slashes : Nat)
  | tag (slashes : Nat) (content : List Char)
  deriving DecidableEq, Repr

/-- Whether a tag may begin with a character. -/
def startsTag (char : Char) : Bool :=
  ('a' ≤ char && char ≤ 'z') || char == '#' || char == '/' || char == '@'

/-- Whether a character may occur in a tag. -/
def isTagChar (char : Char) : Bool := char != '[' && char != ']'

/-- The content of the tag whose bracket was just opened, and what follows its
end. -/
def tag? (text : List Char) : Option (List Char × List Char) :=
  match text.dropWhile isTagChar with
  | ']' :: rest =>
      if text.head?.any startsTag then some (text.takeWhile isTagChar, rest)
      else none
  | _ => none

theorem length_tag? {text content rest : List Char}
    (found : tag? text = some (content, rest)) : rest.length < text.length := by
  unfold tag? at found
  split at found
  · rename_i after shape
    split at found
    · simp only [Option.some.injEq, Prod.mk.injEq] at found
      have := (List.dropWhile_suffix isTagChar (l := text)).length_le
      simp only [shape, List.length_cons, found.2] at this
      omega
    · simp at found
  · simp at found

/-- The parts of a text after some backslashes. -/
def piecesAfter (slashes : Nat) : List Char → List Piece
  | [] => List.replicate slashes (.plain '\\')
  | char :: rest =>
      if char = '\\' then piecesAfter (slashes + 1) rest
      else if char = '[' then
        match _ : tag? rest with
        | some (content, after) => .tag slashes content :: piecesAfter 0 after
        | none => .bracket slashes :: piecesAfter 0 rest
      else
        List.replicate slashes (.plain '\\') ++ .plain char :: piecesAfter 0 rest
termination_by text => text.length
decreasing_by
  · simp
  · have := length_tag? ‹_›
    simp only [List.length_cons]
    omega
  · simp
  · simp

/-- The parts of a text. -/
def pieces (text : List Char) : List Piece := piecesAfter 0 text

def writeTag (content : List Char) : List Char := '[' :: content ++ [']']

/-- A part as it is shown. Two backslashes before a tag stand for one, and one
more keeps the tag; before another bracket one backslash goes. -/
def Piece.shown : Piece → List Char
  | .plain char => [char]
  | .bracket slashes => List.replicate (slashes - 1) '\\' ++ ['[']
  | .tag slashes content =>
      List.replicate (slashes / 2) '\\' ++
        if slashes % 2 = 1 then writeTag content else []

/-- A part with a tag kept as text. -/
def Piece.escaped : Piece → List Char
  | .plain char => [char]
  | .bracket slashes => List.replicate slashes '\\' ++ ['[']
  | .tag slashes content =>
      List.replicate (2 * slashes + 1) '\\' ++ writeTag content

def shown (text : List Char) : List Char := (pieces text).flatMap Piece.shown

/-- A text whose tags are kept as text. A single backslash at its end is
doubled, lest it affect what comes after. -/
def escape (text : List Char) : List Char :=
  let escaped := (pieces text).flatMap Piece.escaped
  match escaped.reverse with
  | '\\' :: '\\' :: _ => escaped
  | '\\' :: _ => escaped ++ ['\\']
  | _ => escaped

def styled (style : String) (text : List Char) : List Char :=
  writeTag style.toList ++ text ++ writeTag ('/' :: style.toList)

end TwinSchema.Console
