import TwinSchema.Text.Blank
import TwinSchema.Yaml.Flaw

/-!
# Glyphs

A text as the list of its characters, each with its place. What a block contains
is told by columns, and a key must end on the line on which it begins. A glyph
that no file contains ends every text, so that the end has a place as well.
-/

namespace TwinSchema.Yaml

/-- A character and its place: how many characters stand before it, and on which
line and in which column it stands. -/
structure Glyph where
  char : Char
  offset : Nat
  line : Nat
  column : Nat
  deriving DecidableEq, Repr

/-- The character of the glyph that ends a text. -/
def endChar : Char := '\x00'

/-- The characters that end a line, once every line feed, carriage return and
next-line character has become a line feed. -/
def isBreak (char : Char) : Bool :=
  char == '\n' || char == '\u2028' || char == '\u2029'

/-- Whether a character is a blank inside a line. -/
def isSpace (char : Char) : Bool := char == ' ' || char == '\t'

/-- Blanks and line breaks. -/
def isGap (char : Char) : Bool := isSpace char || isBreak char

/-- Whether a line ends before a character. -/
def endsLine (char : Char) : Bool := char == endChar || isBreak char

/-- Whether a word ends before a character. -/
def endsWord (char : Char) : Bool := char == endChar || isGap char

/-- Whether a mark such as a tag ends before a character. A tab does not end
it. -/
def endsMark (char : Char) : Bool := char == ' ' || endsLine char

/-- The characters that a file may contain. -/
def isAdmitted (char : Char) : Bool :=
  let code := char.toNat
  code == 0x09 || code == 0x0A || code == 0x0D ||
    (0x20 ≤ code && code ≤ 0x7E) || code == 0x85 ||
    (0xA0 ≤ code && code ≤ 0xFFFD) || 0x10000 ≤ code

/-- A text from a given place on, with its end. A byte order mark takes no
column. -/
def glyphsFrom (offset line column : Nat) : List Char → List Glyph
  | [] => [⟨endChar, offset, line, column⟩]
  | char :: rest =>
      ⟨char, offset, line, column⟩ ::
        if isBreak char then glyphsFrom (offset + 1) (line + 1) 0 rest
        else if char == '\uFEFF' then glyphsFrom (offset + 1) line column rest
        else glyphsFrom (offset + 1) line (column + 1) rest

/-- The glyphs of a text, without a byte order mark at its front. -/
def glyphs (text : List Char) : List Glyph :=
  let unified := (Text.unifyBreaks text).map fun char =>
    if char == '\x85' then '\n' else char
  match glyphsFrom 0 0 0 unified with
  | [] => []
  | first :: rest => if first.char == '\uFEFF' then rest else first :: rest

/-- The character at which a text goes on. -/
def charAt : List Glyph → Char
  | [] => endChar
  | glyph :: _ => glyph.char

/-- The glyph at which a text goes on. -/
def glyphAt : List Glyph → Glyph
  | [] => ⟨endChar, 0, 0, 0⟩
  | glyph :: _ => glyph

def charsOf (text : List Glyph) : List Char := text.map Glyph.char

/-- Whether a text goes on with a mark between documents: three equal characters
at the beginning of a line. -/
def atMark (char : Char) : List Glyph → Bool
  | first :: second :: third :: rest =>
      first.column == 0 && endsWord (charAt rest) &&
        [first, second, third].all fun glyph => glyph.char == char
  | _ => false

/-- Whether a text goes on with either of the marks between documents. -/
def atAnyMark (text : List Glyph) : Bool := atMark '-' text || atMark '.' text

/-- The text after blanks, without tabs. -/
def dropBlanks (text : List Glyph) : List Glyph :=
  text.dropWhile fun glyph => glyph.char == ' '

/-- The text from the end of its line on. -/
def dropLine (text : List Glyph) : List Glyph :=
  text.dropWhile fun glyph => !endsLine glyph.char

/-- The text after blanks and a comment, which must reach the end of the line.
-/
def dropLineEnd? (text : List Glyph) : Option (List Glyph) :=
  let rest := dropBlanks text
  let rest := if charAt rest == '#' then dropLine rest else rest
  if isBreak (charAt rest) then some (rest.drop 1)
  else if charAt rest == endChar then some rest
  else none

mutual

/-- The text from its next token on: blanks, line breaks and comments are passed
over, but no tabs. -/
def skipGaps : List Glyph → List Glyph
  | [] => []
  | glyph :: rest =>
      if glyph.char == '#' then skipComment rest
      else if glyph.char == ' ' || isBreak glyph.char then skipGaps rest
      else glyph :: rest

/-- The text from its next token on, inside a comment. -/
def skipComment : List Glyph → List Glyph
  | [] => []
  | glyph :: rest =>
      if isBreak glyph.char then skipGaps rest
      else if glyph.char == endChar then glyph :: rest
      else skipComment rest

end

/-- A gap inside a text: one line break is a blank, of several the first is
left out. Blanks around them go, but stay where there is no line break. The two
Unicode separators are kept as they are. -/
def foldGap (gap : List Char) : List Char :=
  match gap.filter isBreak with
  | [] => gap
  | ['\n'] => [' ']
  | '\n' :: breaks => breaks
  | breaks => breaks

end TwinSchema.Yaml
