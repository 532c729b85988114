/-!
# Positions in a text

A place in a text is an offset, counted in characters from zero. For people it
is told as a line and a column, both counted from one, and shown by an excerpt.
-/

namespace TwinSchema.Text

/-- A line and a column, both counted from one. -/
structure Position where
  line : Nat
  column : Nat
  deriving DecidableEq, Repr

namespace Position

/-- The beginning of every text. -/
def start : Position := ⟨1, 1⟩

/-- The position after one more character: a line feed opens the next line. -/
def advance (position : Position) (char : Char) : Position :=
  if char = '\n' then ⟨position.line + 1, 1⟩
  else ⟨position.line, position.column + 1⟩

/-- The position of an offset. An offset beyond the end means the end. -/
def ofOffset (text : List Char) (offset : Nat) : Position :=
  (text.take offset).foldl advance start

end Position

/-- An offset that may lie outside a text, moved to its nearer end. -/
def clampOffset (text : List Char) (offset : Int) : Nat :=
  min offset.toNat text.length

/-- The characters from one offset up to another, where a negative bound counts
from the end of the text. -/
def slice (text : List Char) (first last : Int) : List Char :=
  let length : Int := text.length
  let resolve (bound : Int) : Nat :=
    (if bound < 0 then bound + length else bound).toNat
  (text.take (resolve last)).drop (resolve first)

/-- Line feeds are shown as a backslash and the letter n. -/
def showBreaks (text : List Char) : List Char :=
  text.flatMap fun char => if char = '\n' then ['\\', 'n'] else [char]

/-- The surroundings of an offset on one line: `radius` characters on either
side, the place itself marked by `>>>`, and dots where the text goes on. -/
def excerpt (text : List Char) (offset : Nat) (radius : Int) : List Char :=
  let offset := min offset text.length
  let first := max 0 (offset - radius)
  let last := min (text.length : Int) (offset + radius)
  let dots (more : Bool) := if more then ['.', '.', '.'] else []
  dots (0 < first) ++ showBreaks (slice text first offset) ++ ['>', '>', '>'] ++
    showBreaks (slice text offset last) ++ dots (last < text.length)

/-- How much of the text around a failure is shown on either side. -/
def excerptRadius : Int := 40

end TwinSchema.Text
