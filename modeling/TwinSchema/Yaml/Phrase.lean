import TwinSchema.Json.Token
import TwinSchema.Yaml.Glyph

/-!
# Phrases

Texts that may run over several lines: plain words, and texts in single or
double quotes. Each is read together with what follows it.
-/

namespace TwinSchema.Yaml

/-- What was read and what follows it. -/
abbrev Phrase := List Char × List Glyph

/-- Puts characters in front of a phrase. -/
def Phrase.prepend (chars : List Char) (phrase : Phrase) : Phrase :=
  (chars ++ phrase.1, phrase.2)

/-- The characters that mean something inside brackets. -/
def isBracketMark (char : Char) : Bool :=
  [',', '[', ']', '{', '}'].contains char

/-- Whether a plain word stops before a character. Inside brackets it stops at
more of them. -/
def stopsWord (bracketed : Bool) (char : Char) (rest : List Glyph) : Bool :=
  endsWord char ||
    (char == ':' &&
      (endsWord (charAt rest) || (bracketed && isBracketMark (charAt rest)))) ||
    (bracketed && (char == '?' || isBracketMark char))

/-- The longest plain word. -/
def readWord (bracketed : Bool) : List Glyph → Phrase
  | [] => ([], [])
  | glyph :: rest =>
      if stopsWord bracketed glyph.char rest then ([], glyph :: rest)
      else (readWord bracketed rest).prepend [glyph.char]

/-- A plain word and what follows it are all of a text. -/
theorem length_readWord (bracketed : Bool) (text : List Glyph) :
    (readWord bracketed text).1.length + (readWord bracketed text).2.length =
      text.length := by
  induction text with
  | nil => rfl
  | cons glyph rest hypothesis =>
      simp only [readWord]
      split
      · simp
      · simp only [Phrase.prepend, List.length_append, List.length_cons,
          List.length_nil]
        omega

/-- Whether a character may stand between the words of a plain phrase. -/
def isWordGap (glyph : Glyph) : Bool := glyph.char == ' ' || isBreak glyph.char

/-- Whether a plain phrase goes on after a gap. In a block it does so only from
a column on, and no mark between documents begins a line of it. -/
def continuesPhrase (bracketed : Bool) (margin : Int) (text : List Glyph) :
    Bool :=
  charAt text != '#' && !atAnyMark text &&
    (bracketed || margin ≤ (glyphAt text).column) &&
    !(readWord bracketed text).1.isEmpty

/-- A plain phrase, the text after it and the gap behind it, and whether that
gap goes over the end of a line. -/
structure PlainPhrase where
  content : List Char
  rest : List Glyph
  endsLine : Bool
  deriving DecidableEq, Repr

/-- The longest plain phrase. -/
def readPlain (bracketed : Bool) (margin : Int) (text : List Glyph) :
    PlainPhrase :=
  let word := (readWord bracketed text).1
  let after := (readWord bracketed text).2
  if _ : 0 < word.length then
    let gap := charsOf (after.takeWhile isWordGap)
    let next := after.dropWhile isWordGap
    if !gap.isEmpty && continuesPhrase bracketed margin next then
      let phrase := readPlain bracketed margin next
      { phrase with content := word ++ foldGap gap ++ phrase.content }
    else ⟨word, next, gap.any isBreak⟩
  else ⟨[], text, false⟩
termination_by text.length
decreasing_by
  have whole := length_readWord bracketed text
  have dropped : next.length ≤ after.length :=
    (List.dropWhile_suffix isWordGap).length_le
  exact Nat.lt_of_le_of_lt dropped (by
    have positive : 0 < (readWord bracketed text).1.length := ‹_›
    change (readWord bracketed text).2.length < text.length
    omega)

/-- The characters with which no plain phrase begins. -/
def indicators : List Char :=
  ['-', '?', ':', ',', '[', ']', '{', '}', '#', '&', '*', '!', '|', '>', '\'',
    '"', '%', '@', '\x60']

/-- Whether a plain phrase begins here. -/
def startsPlain (bracketed : Bool) (text : List Glyph) : Bool :=
  let char := charAt text
  (!endsWord char && !indicators.contains char) ||
    (!endsWord (charAt (text.drop 1)) &&
      (char == '-' || (!bracketed && (char == '?' || char == ':'))))

/-- A text after its opening single quote, with the gap before it. Two quotes
stand for one. No line of it begins with a mark between documents. -/
def readSingle (gap : List Char) : List Glyph → Except Flaw Phrase
  | [] => .error .malformed
  | glyph :: rest =>
      if glyph.char == endChar then .error .malformed
      else if isGap glyph.char then
        if isBreak glyph.char && atAnyMark rest then .error .malformed
        else readSingle (gap ++ [glyph.char]) rest
      else if glyph.char == '\'' then
        match rest with
        | [] => .ok (foldGap gap, [])
        | second :: others =>
            if second.char == '\'' then
              (readSingle [] others).map
                (Phrase.prepend (foldGap gap ++ ['\'']))
            else .ok (foldGap gap, second :: others)
      else
        (readSingle [] rest).map (Phrase.prepend (foldGap gap ++ [glyph.char]))

/-- The character that a letter after a backslash stands for. -/
def escaped? : Char → Option Char
  | '0' => some '\x00'
  | 'a' => some '\x07'
  | 'b' => some '\x08'
  | 't' => some '\t'
  | '\t' => some '\t'
  | 'n' => some '\n'
  | 'v' => some '\x0B'
  | 'f' => some '\x0C'
  | 'r' => some '\r'
  | 'e' => some '\x1B'
  | ' ' => some ' '
  | '"' => some '"'
  | '\\' => some '\\'
  | '/' => some '/'
  | 'N' => some '\x85'
  | '_' => some '\xA0'
  | 'L' => some '\u2028'
  | 'P' => some '\u2029'
  | _ => none

/-- How many hexadecimal digits follow a letter after a backslash, besides the
first of them. -/
def codeLength? : Char → Option Nat
  | 'x' => some 1
  | 'u' => some 3
  | 'U' => some 7
  | _ => none

/-- The character with a given number. The halves of surrogate pairs show as the
replacement character. -/
def numbered (code : Nat) : Except Flaw Char :=
  if 0x80000000 ≤ code then .error .hugeCharacter
  else if 0x110000 ≤ code then .error .noCharacter
  else if code.isValidChar then .ok (Char.ofNat code)
  else .ok '\uFFFD'

/-- Where a scan between double quotes stands: after a gap, which may have begun
with a line break after a backslash; right after a backslash; or before more
digits of a code, of which so many characters are at hand. -/
inductive QuoteState where
  | gap (joined : Bool) (blanks : List Char)
  | escape
  | code (moreDigits value : Nat)
  deriving DecidableEq, Repr

/-- A gap between double quotes as it is written. After a backslash at the end
of a line only further line breaks count. -/
def closeGap (joined : Bool) (blanks : List Char) : List Char :=
  if joined then blanks.filter isBreak else foldGap blanks

/-- A text after its opening double quote. -/
def readDouble : QuoteState → List Glyph → Except Flaw Phrase
  | _, [] => .error .malformed
  | .gap joined blanks, glyph :: rest =>
      if glyph.char == endChar then .error .malformed
      else if isGap glyph.char then
        if isBreak glyph.char && atAnyMark rest then .error .malformed
        else readDouble (.gap joined (blanks ++ [glyph.char])) rest
      else if glyph.char == '"' then .ok (closeGap joined blanks, rest)
      else if glyph.char == '\\' then
        (readDouble .escape rest).map (Phrase.prepend (closeGap joined blanks))
      else
        (readDouble (.gap false []) rest).map
          (Phrase.prepend (closeGap joined blanks ++ [glyph.char]))
  | .escape, glyph :: rest =>
      match escaped? glyph.char, codeLength? glyph.char with
      | some char, _ =>
          (readDouble (.gap false []) rest).map (Phrase.prepend [char])
      | none, some moreDigits => readDouble (.code moreDigits 0) rest
      | none, none =>
          if isBreak glyph.char && !atAnyMark rest then
            readDouble (.gap true []) rest
          else .error .malformed
  | .code moreDigits value, glyph :: rest =>
      match Json.hexDigit? glyph.char, moreDigits with
      | none, _ => .error .malformed
      | some digit, more + 1 =>
          readDouble (.code more (16 * value + digit)) rest
      | some digit, 0 =>
          match numbered (16 * value + digit) with
          | .error flaw => .error flaw
          | .ok char =>
              (readDouble (.gap false []) rest).map (Phrase.prepend [char])

end TwinSchema.Yaml
