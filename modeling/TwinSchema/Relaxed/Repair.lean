import TwinSchema.Relaxed.Chunk
import TwinSchema.Relaxed.Quote
import TwinSchema.Text.Spacing
import TwinSchema.Text.Word

/-!
# Repairs

The repairs that turn relaxed documents into strict JSON. The regular pass
double-quotes single-quoted texts, drops commas before a closing bracket and
quotes the bare keys that follow an opening brace or a comma. The second pass
also respells foreign literals, quotes bare keys anywhere, inserts commas that a
line break replaced, and puts braces around a bare list of fields.
-/

namespace TwinSchema.Relaxed

open Text

/-- Drops the commas that a closing bracket follows. -/
def dropDanglingCommas : List Char → List Char
  | [] => []
  | char :: rest =>
      if char = ',' ∧ (firstVisible rest = some '}' ∨
          firstVisible rest = some ']') then
        dropDanglingCommas rest
      else char :: dropDanglingCommas rest

/-- Whether a text goes on with a colon, after blanks. -/
def colonFollows (text : List Char) : Bool :=
  firstVisible text == some ':'

/-- What a scan for bare keys is in: other text, the blanks after an opening
brace or a comma, or a bare key. -/
inductive KeyScan where
  | elsewhere
  | slot
  | key
  deriving DecidableEq, Repr

/-- Where a scan for bare keys stands after a character outside of keys. -/
def KeyScan.afterChar (scan : KeyScan) (char : Char) : KeyScan :=
  if char = '{' ∨ char = ',' then .slot
  else if isBlank char && scan == .slot then .slot
  else .elsewhere

/-- Whether a text begins with a bare key and its colon. -/
def beginsKey (text : List Char) : Bool :=
  text.head?.any isKeyChar && colonFollows (text.dropWhile isKeyChar)

/-- Quotes bare keys from a given place on. -/
def quoteSlotKeysFrom : KeyScan → List Char → List Char
  | _, [] => []
  | .key, char :: rest =>
      if isKeyChar char then char :: quoteSlotKeysFrom .key rest
      else '"' :: char :: quoteSlotKeysFrom (KeyScan.afterChar .key char) rest
  | scan, char :: rest =>
      if scan = .slot ∧ beginsKey (char :: rest) then
        '"' :: char :: quoteSlotKeysFrom .key rest
      else char :: quoteSlotKeysFrom (scan.afterChar char) rest

/-- Quotes the bare keys that follow an opening brace or a comma. -/
def quoteSlotKeys (code : List Char) : List Char :=
  quoteSlotKeysFrom .elsewhere code

/-- Drops dangling commas, then quotes bare keys. -/
def repairCode (code : List Char) : List Char :=
  quoteSlotKeys (dropDanglingCommas code)

/-- The regular pass over a text without comments. -/
def normalize (text : List Char) : List Char :=
  mapCode repairCode (convertSingleQuotes text)

/-- Changes every maximal run of name characters, given what follows it. -/
def mapWords (change : (word following : List Char) → List Char) :
    List Char → List Char
  | [] => []
  | char :: rest =>
      if isNamePart char then
        change (char :: rest.takeWhile isNamePart)
            (rest.dropWhile isNamePart) ++
          mapWords change (rest.dropWhile isNamePart)
      else char :: mapWords change rest
termination_by code => code.length
decreasing_by
  · have := length_dropWhile isNamePart rest
    simp only [List.length_cons]
    omega
  · simp

/-- The strict spelling of a literal from another notation. -/
def foreignLiteral? (word : List Char) : Option (List Char) :=
  if word = "True".toList then some "true".toList
  else if word = "False".toList then some "false".toList
  else if word = "None".toList ∨ word = "undefined".toList then
    some "null".toList
  else none

/-- Respells a foreign literal, unless it is a key. -/
def respellWord (word following : List Char) : List Char :=
  if colonFollows following then word else (foreignLiteral? word).getD word

/-- Quotes a word that is a bare key. -/
def quoteWord (word following : List Char) : List Char :=
  if word.head?.any isNameStart && colonFollows following then
    '"' :: word ++ ['"']
  else word

/-- Respells foreign literals, then quotes bare keys wherever they stand. -/
def repairWords (code : List Char) : List Char :=
  mapWords quoteWord (mapWords respellWord code)

/-- Whether a character can be the last one of a value. -/
def endsValue (char : Char) : Bool :=
  char ∈ ['"', '}', ']', 'e', 'l'] || ('0' ≤ char && char ≤ '9')

/-- Whether a character can be the first one of a value. -/
def beginsValue (char : Char) : Bool :=
  char ∈ ['"', '{', '[', '-', 't', 'f', 'n'] || ('0' ≤ char && char ≤ '9')

/-- Puts a comma before the first line feed. -/
def commaBeforeBreak : List Char → List Char
  | [] => []
  | char :: rest =>
      if char = '\n' then ',' :: char :: rest
      else char :: commaBeforeBreak rest

/-- The gap between two characters with the comma that is missing there: where a
line feed separates the end of a value from the beginning of another, a comma
goes before the line feed, or, in front of a text, before all the blanks. -/
def separatedGap (previous : Option Char) (gap : List Char)
    (next : Option Cell) : List Char :=
  match previous, next with
  | some last, some cell =>
      if '\n' ∈ gap ∧ endsValue last ∧ beginsValue cell.char then
        if cell.quoted then ',' :: gap else commaBeforeBreak gap
      else gap
  | _, _ => gap

/-- The spacing that restores commas lost at line breaks. -/
def missingCommas : Spacing (Option Char) where
  advance := fun _ cell => some cell.char
  gap := separatedGap

/-- Inserts commas between values separated only by a line break. -/
def insertMissingCommas (text : List Char) : List Char :=
  missingCommas.lay none ['"'] text

/-- Drops one double quote, if there is one. -/
def dropQuote : List Char → List Char
  | [] => []
  | char :: rest => if char = '"' then rest else char :: rest

/-- Whether a text begins with a key and its colon instead of a brace. -/
def isBareBody (text : List Char) : Bool :=
  match name? (dropQuote (trimLeft text)) with
  | some (_, rest) => colonFollows (dropQuote rest)
  | none => false

/-- Puts braces around a bare list of fields. -/
def wrapBareBody (text : List Char) : List Char :=
  if isBareBody text then '{' :: text ++ ['}'] else text

/-- The second pass over a text without comments. -/
def normalizeBoldly (text : List Char) : List Char :=
  mapCode dropDanglingCommas
    (wrapBareBody (insertMissingCommas (mapCode repairWords (normalize text))))

end TwinSchema.Relaxed
