import TwinSchema.Text.Literal

/-!
# Comments

Line comments begin with two slashes, block comments with a slash and a star.
Inside a quoted literal neither is a comment. Removing comments keeps every line
break, so what remains stays on its line.
-/

namespace TwinSchema.Relaxed

open Text

/-- Where a scan for comments stands: in text, or in one of the two kinds of
comment. -/
inductive Region where
  | text (cursor : Cursor)
  | lineComment
  | blockComment
  deriving DecidableEq, Repr

/-- The text from a region on, without its comments. A line comment ends before
its line break; of a block comment only the line feeds remain. A comment that is
never closed runs to the end. -/
def stripFrom (quotes : List Char) : Region → List Char → List Char
  | _, [] => []
  | .lineComment, char :: rest =>
      if char = '\r' ∨ char = '\n' then
        char :: stripFrom quotes (.text .code) rest
      else stripFrom quotes .lineComment rest
  | .blockComment, char :: rest =>
      match char, rest with
      | '*', '/' :: after => stripFrom quotes (.text .code) after
      | '\n', others => '\n' :: stripFrom quotes .blockComment others
      | _, others => stripFrom quotes .blockComment others
  | .text .code, char :: rest =>
      if char ∈ quotes then
        char :: stripFrom quotes (.text (.literal char)) rest
      else
        match char, rest with
        | '/', '/' :: after => stripFrom quotes .lineComment after
        | '/', '*' :: after => stripFrom quotes .blockComment after
        | _, others => char :: stripFrom quotes (.text .code) others
  | .text cursor, char :: rest =>
      char :: stripFrom quotes (.text (cursor.advance quotes char)) rest

/-- A text without its comments. -/
def stripComments (quotes text : List Char) : List Char :=
  stripFrom quotes (.text .code) text

end TwinSchema.Relaxed
