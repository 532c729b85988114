import TwinSchema.Number.Numeral
import TwinSchema.Text.Octets
import TwinSchema.Yaml.Phrase

/-!
# Tags

A tag says what a node is. It is written in full between angle brackets, or with
a handle that stands for the first part of it; directives say what a handle
stands for. Anchors give names to nodes.
-/

namespace TwinSchema.Yaml

/-- Whether a character may occur in a name. -/
def isNameChar (char : Char) : Bool :=
  char.isAlphanum || char == '-' || char == '_'

/-- The longest name, which may be empty. -/
def readName (text : List Glyph) : Phrase :=
  (charsOf (text.takeWhile fun glyph => isNameChar glyph.char),
    text.dropWhile fun glyph => isNameChar glyph.char)

/-- The characters besides a gap that may come after the name of a node. -/
def nameStops : List Char := ['?', ':', ',', ']', '}', '%', '@', '\x60']

/-- Reads the name of a node after the character that announces it. -/
def readAnchor (text : List Glyph) : Except Flaw Phrase :=
  let (name, rest) := readName text
  if name.isEmpty then .error .malformed
  else if endsWord (charAt rest) || nameStops.contains (charAt rest) then
    .ok (name, rest)
  else .error .malformed

/-- Whether a character may occur in an address, where a percent sign announces
an octet. -/
def isAddressChar (char : Char) : Bool :=
  isNameChar char || ";/?:@&=+$,.!~*'()[]%".toList.contains char

/-- The text of an address. Every run of octets is UTF-8 by itself. -/
def decodeAddress? (octets : List UInt8) : List Char → Option (List Char)
  | [] => (Text.decoded? octets).map String.toList
  | '%' :: high :: low :: rest => do
      let octet := 16 * (← Json.hexDigit? high) + (← Json.hexDigit? low)
      decodeAddress? (octets ++ [UInt8.ofNat octet]) rest
  | char :: rest =>
      if char = '%' then none
      else do
        let decoded ← Text.decoded? octets
        return decoded.toList ++ char :: (← decodeAddress? [] rest)

/-- Reads an address, which is not empty. -/
def readAddress (text : List Glyph) : Except Flaw Phrase :=
  let address := text.takeWhile fun glyph => isAddressChar glyph.char
  match address, decodeAddress? [] (charsOf address) with
  | _ :: _, some decoded => .ok (decoded, text.drop address.length)
  | _, _ => .error .malformed

/-- A tag as it is written: a handle for its first part, unless it is written in
full, and the rest of it. -/
structure WrittenTag where
  handle : Option (List Char)
  rest : List Char
  deriving DecidableEq, Repr

/-- What handles stand for. -/
abbrev Handles := List (List Char × List Char)

/-- What the two usual handles stand for. -/
def standardHandles : Handles :=
  [(['!'], ['!']), (['!', '!'], "tag:yaml.org,2002:".toList)]

/-- The full text of a tag, if its handle is known. -/
def WrittenTag.full? (handles : Handles) (tag : WrittenTag) :
    Option (List Char) :=
  match tag.handle with
  | none => some tag.rest
  | some handle => (handles.lookup handle).map fun first => first ++ tag.rest

/-- Reads a handle: one exclamation mark, or a name between two of them. -/
def readHandle : List Glyph → Except Flaw Phrase
  | [] => .error .malformed
  | mark :: rest =>
      let (name, after) := readName rest
      if mark.char != '!' then .error .malformed
      else if charAt rest == ' ' then .ok (['!'], rest)
      else if charAt after == '!' then
        .ok ('!' :: (name ++ ['!']), after.drop 1)
      else .error .malformed

/-- Reads a tag that has a handle. A single exclamation mark is one only if no
other mark follows in the same word. -/
def readShortTag (text : List Glyph) :
    Except Flaw (WrittenTag × List Glyph) := do
  let word := (text.drop 1).takeWhile fun glyph => !endsMark glyph.char
  let (handle, after) ←
    if word.any fun glyph => glyph.char == '!' then readHandle text
    else .ok (['!'], text.drop 1)
  let (address, rest) ← readAddress after
  return (⟨some handle, address⟩, rest)

/-- Reads a tag that is written in full, after its opening bracket. -/
def readFullTag (text : List Glyph) :
    Except Flaw (WrittenTag × List Glyph) := do
  let (address, rest) ← readAddress text
  if charAt rest == '>' then return (⟨none, address⟩, rest.drop 1)
  else throw .malformed

/-- Reads a tag with its exclamation mark, which may be all of it. -/
def readTag (text : List Glyph) : Except Flaw (WrittenTag × List Glyph) := do
  let next := charAt (text.drop 1)
  let (tag, rest) ←
    if next == '<' then readFullTag (text.drop 2)
    else if endsWord next then .ok (⟨none, ['!']⟩, text.drop 1)
    else readShortTag text
  if endsMark (charAt rest) then return (tag, rest) else throw .malformed

/-- A line that says something about the document below it: the major version of
the language, or what a handle stands for. -/
inductive Directive where
  | version (major : Int)
  | handle (name first : List Char)
  | other
  deriving DecidableEq, Repr

def readVersionPart (text : List Glyph) : Except Flaw (Int × List Glyph) :=
  let digits := charsOf (text.takeWhile fun glyph => Json.isDigit glyph.char)
  match Number.readInteger 10 digits with
  | .ok value => .ok (value, text.drop digits.length)
  | .error .malformed => .error .malformed
  | .error (.tooLong count) => .error (.longInteger count)

/-- Reads a version: two numbers and a point between them. -/
def readVersion (text : List Glyph) :
    Except Flaw (Directive × List Glyph) := do
  let (major, after) ← readVersionPart text
  if charAt after != '.' then throw .malformed
  let (_, rest) ← readVersionPart (after.drop 1)
  if endsMark (charAt rest) then return (.version major, rest)
  else throw .malformed

/-- Reads a handle and what it stands for. -/
def readHandleRule (text : List Glyph) :
    Except Flaw (Directive × List Glyph) := do
  let (name, after) ← readHandle text
  if charAt after != ' ' then throw .malformed
  let (first, rest) ← readAddress (dropBlanks after)
  if endsMark (charAt rest) then return (.handle name first, rest)
  else throw .malformed

/-- Reads a directive after its percent sign, to the end of its line. -/
def readDirective (text : List Glyph) :
    Except Flaw (Directive × List Glyph) := do
  let (name, after) := readName text
  if name.isEmpty || !endsMark (charAt after) then throw .malformed
  let (directive, rest) ←
    match String.ofList name with
    | "YAML" => readVersion (dropBlanks after)
    | "TAG" => readHandleRule (dropBlanks after)
    | _ => .ok (.other, dropLine after)
  match dropLineEnd? rest with
  | some next => return (directive, next)
  | none => throw .malformed

end TwinSchema.Yaml
