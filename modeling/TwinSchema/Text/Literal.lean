/-!
# Quoted literals inside a text

A scan over a text is at every character either in code or inside a quoted
literal. A literal opens at one of the given quote characters, ends at the same
quote, and a backslash in it protects the next character; a literal that is
never closed runs to the end of the text.
-/

namespace TwinSchema.Text

def documentQuotes : List Char := ['"', '\'']

def sourceQuotes : List Char := ['"', '\'', '\x60']

/-- Where a scan stands: in code, inside a literal, or right after a backslash
inside a literal. -/
inductive Cursor where
  | code
  | literal (quote : Char)
  | escape (quote : Char)
  deriving DecidableEq, Repr

namespace Cursor

/-- The position after one more character. -/
def advance (quotes : List Char) : Cursor → Char → Cursor
  | .code, char => if char ∈ quotes then .literal char else .code
  | .literal quote, char =>
      if char = '\\' then .escape quote
      else if char = quote then .code
      else .literal quote
  | .escape quote, _ => .literal quote

/-- The position after a whole text. -/
def after (quotes : List Char) (cursor : Cursor) (text : List Char) : Cursor :=
  text.foldl (advance quotes) cursor

end Cursor

/-- A character of a text together with whether it belongs to a literal; the
quotes around a literal belong to it. -/
structure Cell where
  char : Char
  quoted : Bool
  deriving DecidableEq, Repr

/-- Every character of a text, marked as code or as part of a literal. -/
def cells (quotes : List Char) : Cursor → List Char → List Cell
  | _, [] => []
  | cursor, char :: rest =>
      let next := cursor.advance quotes char
      ⟨char, cursor != .code || next != .code⟩ :: cells quotes next rest

end TwinSchema.Text
