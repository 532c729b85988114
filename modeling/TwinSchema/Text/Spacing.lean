import TwinSchema.Text.Blank
import TwinSchema.Text.Literal

/-!
# Gaps between visible characters

The blanks outside literals separate the characters that count. A spacing
sets each of these gaps by what stands before and after it, and touches
nothing else.
-/

namespace TwinSchema.Text

/-- A cell that only separates others: a blank outside every literal. -/
def Cell.isGap (cell : Cell) : Bool :=
  !cell.quoted && isBlank cell.char

/-- A way to set gaps. Its state sums up the visible cells so far; `gap`
gives the new blanks between that state and the next visible cell, or the end of
the text. -/
structure Spacing (State : Type) where
  advance : State → Cell → State
  gap : State → List Char → Option Cell → List Char

namespace Spacing

variable {State : Type}

/-- Respaces cells, where `pending` holds the current gap so far, last blank
first. -/
def layFrom (spacing : Spacing State) (state : State) (pending : List Char) :
    List Cell → List Char
  | [] => spacing.gap state pending.reverse none
  | cell :: rest =>
      if cell.isGap then spacing.layFrom state (cell.char :: pending) rest
      else
        spacing.gap state pending.reverse (some cell) ++
          cell.char :: spacing.layFrom (spacing.advance state cell) [] rest

/-- Respaces a text in which the given quotes open literals. -/
def lay (spacing : Spacing State) (start : State) (quotes text : List Char) :
    List Char :=
  spacing.layFrom start [] (cells quotes .code text)

end Spacing

end TwinSchema.Text
