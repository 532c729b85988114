/-!
# Blank characters and lines

A text is handled as its list of characters. This module fixes which characters
are blank, how blanks are trimmed, and where a text breaks into lines.
-/

namespace TwinSchema.Text

/-- The characters that count as white space: the spaces, the line and paragraph
separators and the control characters that Unicode treats as separators. -/
def isBlank (char : Char) : Bool :=
  let code := char.toNat
  (0x09 ≤ code && code ≤ 0x0D) || (0x1C ≤ code && code ≤ 0x20) ||
    code == 0x85 || code == 0xA0 || code == 0x1680 ||
    (0x2000 ≤ code && code ≤ 0x200A) || code == 0x2028 || code == 0x2029 ||
    code == 0x202F || code == 0x205F || code == 0x3000

def trimLeft (text : List Char) : List Char :=
  text.dropWhile isBlank

/-- The text without its trailing blanks. -/
def trimRight (text : List Char) : List Char :=
  (text.reverse.dropWhile isBlank).reverse

/-- The text without blanks at either end. -/
def trim (text : List Char) : List Char :=
  trimRight (trimLeft text)

/-- A text is blank when every character of it is. -/
def allBlank (text : List Char) : Bool :=
  text.all isBlank

def firstVisible (text : List Char) : Option Char :=
  text.find? fun char => !isBlank char

/-- Removes one given character at the front of a text. -/
def dropChar? (expected : Char) : List Char → Option (List Char)
  | [] => none
  | char :: rest => if char = expected then some rest else none

/-- Removes a given beginning of a text. -/
def dropWord? : (word text : List Char) → Option (List Char)
  | [], text => some text
  | _ :: _, [] => none
  | expected :: word, char :: rest =>
      if char = expected then dropWord? word rest else none

/-- Whether one text occurs in another. -/
def occursIn (word : List Char) : List Char → Bool
  | [] => word.isEmpty
  | char :: rest => word.isPrefixOf (char :: rest) || occursIn word rest

/-- The characters that end a line. A carriage return directly before a line
feed forms one break with it. -/
def breaksLine (char : Char) : Bool :=
  let code := char.toNat
  (0x0A ≤ code && code ≤ 0x0D) || (0x1C ≤ code && code ≤ 0x1E) ||
    code == 0x85 || code == 0x2028 || code == 0x2029

/-- The lines of a text without their breaks. A break at the very end opens no
further line, and the empty text has no line. -/
def lines : List Char → List (List Char)
  | [] => []
  | '\r' :: '\n' :: rest => [] :: lines rest
  | char :: rest =>
      if breaksLine char then [] :: lines rest
      else
        match lines rest with
        | [] => [[char]]
        | line :: others => (char :: line) :: others

/-- Every carriage return, alone or before a line feed, becomes a line feed. -/
def unifyBreaks : List Char → List Char
  | [] => []
  | '\r' :: '\n' :: rest => '\n' :: unifyBreaks rest
  | '\r' :: rest => '\n' :: unifyBreaks rest
  | char :: rest => char :: unifyBreaks rest

/-- The text after its leading blanks, of which there must be one at least. -/
def blanks? : List Char → Option (List Char)
  | [] => none
  | char :: rest => if isBlank char then some (trimLeft rest) else none

/-- A line break followed by the blanks of a nesting level. A step of zero or
less gives no blanks. -/
def lineBreak (step : Int) (level : Nat) : List Char :=
  '\n' :: List.replicate (step * level).toNat ' '

theorem length_dropWord? {word text rest : List Char}
    (dropped : dropWord? word text = some rest) :
    rest.length ≤ text.length := by
  fun_induction dropWord? word text with
  | case1 => simp_all
  | case2 => simp at dropped
  | case3 =>
      rename_i bound
      have := bound dropped
      simp only [List.length_cons]
      omega
  | case4 => simp at dropped

theorem length_dropChar? {expected : Char} {text rest : List Char}
    (dropped : dropChar? expected text = some rest) :
    rest.length < text.length := by
  cases text with
  | nil => simp [dropChar?] at dropped
  | cons char tail =>
      simp only [dropChar?] at dropped
      split at dropped
      · simp only [Option.some.injEq] at dropped
        simp [dropped]
      · simp at dropped

theorem length_dropWhile (test : Char → Bool) (text : List Char) :
    (text.dropWhile test).length ≤ text.length :=
  (List.dropWhile_suffix test).length_le

theorem length_trimLeft (text : List Char) :
    (trimLeft text).length ≤ text.length :=
  length_dropWhile isBlank text

theorem length_trimRight (text : List Char) :
    (trimRight text).length ≤ text.length := by
  have := length_dropWhile isBlank text.reverse
  simpa [trimRight] using this

theorem length_trim (text : List Char) : (trim text).length ≤ text.length :=
  Nat.le_trans (length_trimRight _) (length_trimLeft text)

end TwinSchema.Text
