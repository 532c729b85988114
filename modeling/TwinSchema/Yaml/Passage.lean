import TwinSchema.Yaml.Phrase

/-!
# Passages

A text that takes the indented lines below its header. A literal passage keeps
its line breaks; a folded one turns a line break between two lines of text into
a blank. The header may also fix the indentation, and what becomes of the line
breaks at the end.
-/

namespace TwinSchema.Yaml

/-- What becomes of the line breaks at the end of a passage: none, one or all of
them are kept. -/
inductive Chomping where
  | strip
  | clip
  | keep
  deriving DecidableEq, Repr

/-- The header of a passage. The indentation counts from the block around it. -/
structure Header where
  folded : Bool
  chomping : Chomping := .clip
  indentation : Option Nat := none
  deriving DecidableEq, Repr

/-- The meaning of a sign in a header. -/
def chomping? : Char → Option Chomping
  | '-' => some .strip
  | '+' => some .keep
  | _ => none

/-- The meaning of a digit in a header. -/
def indentation? (char : Char) : Option Nat :=
  if Json.isDigit char && char != '0' then Json.hexDigit? char else none

/-- Reads the signs of a header, at most one of each kind. -/
def readSigns (header : Header) (text : List Glyph) : Header × List Glyph :=
  match chomping? (charAt text), indentation? (charAt text) with
  | some chomping, _ =>
      let rest := text.drop 1
      match indentation? (charAt rest) with
      | some count =>
          ({ header with chomping, indentation := some count }, rest.drop 1)
      | none => ({ header with chomping }, rest)
  | none, some count =>
      let rest := text.drop 1
      match chomping? (charAt rest) with
      | some chomping =>
          ({ header with chomping, indentation := some count }, rest.drop 1)
      | none => ({ header with indentation := some count }, rest)
  | none, none => (header, text)

/-- The blanks and line breaks before the first text of a passage: the breaks,
the column that the blanks reach, and what follows. -/
def readLead : List Glyph → List Char × Nat × List Glyph
  | [] => ([], 0, [])
  | glyph :: rest =>
      if isBreak glyph.char then
        let (breaks, reach, after) := readLead rest
        (glyph.char :: breaks, reach, after)
      else if glyph.char == ' ' then
        let (breaks, reach, after) := readLead rest
        (breaks, max (glyph.column + 1) reach, after)
      else ([], 0, glyph :: rest)

/-- The line breaks of lines without text, which may have blanks up to the
indentation, and what follows them and the blanks of the next line. -/
def readBreaks (indentation : Int) : List Glyph → List Char × List Glyph
  | [] => ([], [])
  | glyph :: rest =>
      if glyph.char == ' ' && glyph.column < indentation then
        readBreaks indentation rest
      else if isBreak glyph.char then
        let (breaks, after) := readBreaks indentation rest
        (glyph.char :: breaks, after)
      else ([], glyph :: rest)

theorem length_readBreaks (indentation : Int) (text : List Glyph) :
    (readBreaks indentation text).2.length ≤ text.length := by
  induction text with
  | nil => simp [readBreaks]
  | cons glyph rest hypothesis =>
      simp only [readBreaks, List.length_cons]
      split
      · omega
      · split
        · simp only
          omega
        · simp

/-- A line of a passage, its own break, and those of the lines without text that
follow it. The break at the very end of a file may be missing. -/
structure Line where
  content : List Char
  ending : List Char
  breaks : List Char
  deriving DecidableEq, Repr

/-- The lines of a passage from its first text on, and the text after it. Lines
belong to it as long as they have the indentation. -/
def readLines (indentation : Int) (text : List Glyph) :
    List Line × List Glyph :=
  match text with
  | [] => ([], [])
  | glyph :: rest =>
      if glyph.column != indentation || endsLine glyph.char then ([], text)
      else
        let content :=
          charsOf (rest.takeWhile fun glyph => !endsLine glyph.char)
        let ended := dropLine rest
        let ending := if isBreak (charAt ended) then [charAt ended] else []
        let next := readBreaks indentation (ended.drop ending.length)
        let (lines, after) := readLines indentation next.2
        (⟨glyph.char :: content, ending, next.1⟩ :: lines, after)
termination_by text.length
decreasing_by
  have dropped : ended.length ≤ rest.length :=
    (List.dropWhile_suffix _).length_le
  have broken : next.2.length ≤ (ended.drop ending.length).length :=
    length_readBreaks indentation _
  have shorter : (ended.drop ending.length).length ≤ ended.length := by
    simp only [List.length_drop]
    omega
  exact Nat.lt_succ_of_le (Nat.le_trans broken (Nat.le_trans shorter dropped))

/-- Whether a line of text begins with a blank, which keeps the line breaks
around it from folding. -/
def isSet (content : List Char) : Bool := content.head?.any isSpace

/-- What stands between a line of text and the next one. Folding makes a blank
of the break of the line if it is alone, and drops it otherwise. -/
def joint (folded : Bool) (line next : Line) : List Char :=
  if folded && line.ending == ['\n'] && !isSet line.content &&
      !isSet next.content then
    if line.breaks.isEmpty then [' '] else line.breaks
  else line.ending ++ line.breaks

/-- The text of the lines of a passage. -/
def joinLines (header : Header) : List Line → List Char
  | [] => []
  | [line] =>
      match header.chomping with
      | .strip => line.content
      | .clip => line.content ++ line.ending
      | .keep => line.content ++ line.ending ++ line.breaks
  | line :: next :: rest =>
      line.content ++ joint header.folded line next ++
        joinLines header (next :: rest)

/-- Reads a passage after its first character, inside a block whose lines begin
before the given margin. -/
def readPassage (folded : Bool) (margin : Int) (text : List Glyph) :
    Except Flaw Phrase :=
  let (header, afterSigns) := readSigns { folded } text
  if !endsMark (charAt afterSigns) then .error .malformed
  else
    match dropLineEnd? afterSigns with
    | none => .error .malformed
    | some body =>
        let least := max margin 1
        let (indentation, breaks, start) :=
          match header.indentation with
          | some count =>
              let indentation := least + count - 1
              (indentation, readBreaks indentation body)
          | none =>
              let (breaks, reach, start) := readLead body
              (max least reach, breaks, start)
        let (lines, after) := readLines indentation start
        if lines.isEmpty then
          .ok (if header.chomping = .keep then breaks else [], after)
        else .ok (breaks ++ joinLines header lines, after)

end TwinSchema.Yaml
