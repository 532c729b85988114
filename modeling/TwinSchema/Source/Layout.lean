import TwinSchema.Text.Spacing

/-!
# Layout of source text

Source text is laid out with one entry per line: a line ends after an opening
brace or bracket, before a closing one, and after a comma inside them, and
begins with the blanks of its depth. Only blanks outside literals change, and an
empty pair of brackets stays together.
-/

namespace TwinSchema.Source

open Text

def opensLevel (cell : Cell) : Bool :=
  !cell.quoted && (cell.char == '{' || cell.char == '[')

/-- The brackets that close a level of layout. -/
def closesLevel (cell : Cell) : Bool :=
  !cell.quoted && (cell.char == '}' || cell.char == ']')

/-- What the characters so far mean for the next gap: the depth, and whether the
last of them was an opening bracket or a comma inside brackets. A closing
bracket too many leaves the depth at zero. -/
structure Indentation where
  depth : Nat := 0
  opened : Bool := false
  separated : Bool := false
  deriving DecidableEq, Repr

namespace Indentation

/-- The indentation after one more character. -/
def advance (state : Indentation) (cell : Cell) : Indentation :=
  if opensLevel cell then
    { depth := state.depth + 1, opened := true }
  else if closesLevel cell then { depth := state.depth - 1 }
  else
    { depth := state.depth
      separated := !cell.quoted && cell.char == ',' && 0 < state.depth }

/-- The gap that the layout puts between the characters so far and the next
one. -/
def gap (step : Int) (state : Indentation) (blanks : List Char)
    (next : Option Cell) : List Char :=
  if next.any closesLevel then
    if state.opened then [] else lineBreak step (state.depth - 1)
  else if state.opened || state.separated then lineBreak step state.depth
  else blanks

end Indentation

/-- The layout with a given number of blanks per level. -/
def layout (step : Int) : Spacing Indentation where
  advance := Indentation.advance
  gap := Indentation.gap step

/-- Source text laid out with one entry per line. -/
def reindent (step : Int) (text : List Char) : List Char :=
  (layout step).lay {} sourceQuotes text

end TwinSchema.Source
