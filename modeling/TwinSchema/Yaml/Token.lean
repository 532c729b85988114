import TwinSchema.Yaml.Passage
import TwinSchema.Yaml.Tag

/-!
# Tokens

The tokens of a file, one after the other. Where a block begins and ends follows
from columns. Whether a token begins a key is known only when the colon after it
is found, so tokens wait in a queue until that is settled.
-/

namespace TwinSchema.Yaml

/-- The smallest parts of a file that mean something. -/
inductive Token where
  | directive (directive : Directive)
  | documentStart
  | documentEnd
  | fileEnd
  | blockList
  | blockRecord
  | blockEnd
  | listStart
  | listEnd
  | recordStart
  | recordEnd
  | dash
  | comma
  | key
  | content
  | alias (name : List Char)
  | anchor (name : List Char)
  | tag (tag : WrittenTag)
  | scalar (plain : Bool) (text : List Char)
  deriving DecidableEq, Repr

/-- A token that may begin a key: how many tokens come before it, whether there
has to be a key, and where it stands. -/
structure KeyStart where
  number : Nat
  required : Bool
  place : Glyph
  deriving DecidableEq, Repr

/-- The tokens of a text that is being read: those that wait, how many were
taken before them, the number of open brackets, the columns of the open blocks,
and what may begin a key at each depth of brackets. -/
structure Tokens where
  text : List Glyph
  queue : List Token := []
  taken : Nat := 0
  ended : Bool := false
  depth : Nat := 0
  blocks : List Nat := []
  keyAllowed : Bool := true
  starts : List (Nat × KeyStart) := []
  deriving DecidableEq, Repr

/-- How far its colon may be from the beginning of a key. -/
def keyReach : Nat := 1024

namespace Tokens

/-- Where the text goes on. -/
def here (tokens : Tokens) : Glyph := glyphAt tokens.text

/-- Adds a token to the queue. -/
def enqueue (tokens : Tokens) (token : Token) : Tokens :=
  { tokens with queue := tokens.queue ++ [token] }

/-- Adds a token to the queue and goes on after it. -/
def push (tokens : Tokens) (token : Token) (text : List Glyph) : Tokens :=
  { tokens.enqueue token with text }

/-- Whether what began as a key is none any more: a key ends on its line and has
a limited length. -/
def isStale (here : Glyph) (start : KeyStart) : Bool :=
  start.place.line != here.line || start.place.offset + keyReach < here.offset

/-- Forgets beginnings that have become stale. -/
def dropStale (tokens : Tokens) : Except Flaw Tokens :=
  let stale := fun (entry : Nat × KeyStart) => isStale tokens.here entry.2
  if tokens.starts.any fun entry => stale entry && entry.2.required then
    .error .malformed
  else
    .ok { tokens with
      starts := tokens.starts.filter fun entry => !stale entry }

/-- Forgets the beginning at this depth, which must not be required. -/
def dropStart (tokens : Tokens) : Except Flaw Tokens :=
  match tokens.starts.lookup tokens.depth with
  | none => .ok tokens
  | some start =>
      if start.required then .error .malformed
      else
        .ok { tokens with
          starts := tokens.starts.filter fun entry => entry.1 != tokens.depth }

/-- Notes that the next token may begin a key. Where a line of a record begins
there has to be one. -/
def noteStart (tokens : Tokens) : Except Flaw Tokens :=
  if !tokens.keyAllowed then .ok tokens
  else
    tokens.dropStart.map fun kept =>
      let required :=
        kept.depth == 0 && kept.blocks.head? == some kept.here.column
      let start := ⟨kept.taken + kept.queue.length, required, kept.here⟩
      { kept with starts := (kept.depth, start) :: kept.starts }

/-- The column of the innermost block. -/
def indent (tokens : Tokens) : Int :=
  match tokens.blocks with
  | [] => -1
  | column :: _ => column

/-- Opens a block at a column, unless the innermost one is as far to the right.
-/
def openBlock (tokens : Tokens) (column : Nat) (token : Token) : Tokens :=
  if tokens.indent < column then
    { tokens.enqueue token with blocks := column :: tokens.blocks }
  else tokens

/-- Closes the blocks to the right of a column. Inside brackets there are no
blocks. -/
def closeBlocks (tokens : Tokens) (column : Int) : Tokens :=
  if tokens.depth != 0 then tokens
  else
    let closed :=
      tokens.blocks.takeWhile fun (block : Nat) => column < block
    { tokens with
      queue := tokens.queue ++ closed.map fun _ => Token.blockEnd
      blocks := tokens.blocks.drop closed.length }

/-- Goes on to the next token. After a line break a key may begin, except inside
brackets. -/
def skip (tokens : Tokens) : Tokens :=
  let text := skipGaps tokens.text
  let crossed := (glyphAt text).line != tokens.here.line
  { tokens with
    text, keyAllowed := tokens.keyAllowed || (crossed && tokens.depth == 0) }

def readEnd (tokens : Tokens) : Except Flaw Tokens :=
  (tokens.closeBlocks (-1)).dropStart.map fun kept =>
    { kept.enqueue .fileEnd with
      keyAllowed := false, starts := [], ended := true }

/-- Reads what stands between documents: a directive or a mark. -/
def readBetween (tokens : Tokens)
    (read : List Glyph → Except Flaw (Token × List Glyph)) :
    Except Flaw Tokens := do
  let kept ← (tokens.closeBlocks (-1)).dropStart
  let (token, rest) ← read kept.text
  return { kept.push token rest with keyAllowed := false }

def readOpening (tokens : Tokens) (token : Token) : Except Flaw Tokens :=
  tokens.noteStart.map fun noted =>
    { noted.push token (noted.text.drop 1) with
      depth := noted.depth + 1, keyAllowed := true }

/-- Reads a closing bracket, if one is open. -/
def readClosing (tokens : Tokens) (token : Token) : Except Flaw Tokens :=
  if tokens.depth = 0 then .error .malformed
  else
    tokens.dropStart.map fun kept =>
      { kept.push token (kept.text.drop 1) with
        depth := kept.depth - 1, keyAllowed := false }

def readComma (tokens : Tokens) : Except Flaw Tokens :=
  tokens.dropStart.map fun kept =>
    { kept.push .comma (kept.text.drop 1) with keyAllowed := true }

/-- Opens a block for an indicator, which must stand where a key may begin.
Inside brackets it needs none. -/
def openFor (tokens : Tokens) (token : Token) : Except Flaw Tokens :=
  if tokens.depth != 0 then .ok tokens
  else if tokens.keyAllowed then
    .ok (tokens.openBlock tokens.here.column token)
  else .error .malformed

def readDash (tokens : Tokens) : Except Flaw Tokens := do
  let kept ← (← tokens.openFor .blockList).dropStart
  return { kept.push .dash (kept.text.drop 1) with keyAllowed := true }

/-- Reads the question mark before a key. -/
def readKey (tokens : Tokens) : Except Flaw Tokens := do
  let kept ← (← tokens.openFor .blockRecord).dropStart
  return { kept.push .key (kept.text.drop 1) with
    keyAllowed := kept.depth == 0 }

/-- Puts tokens into the queue in front of the one that begins a key. -/
def insertAt (tokens : Tokens) (start : KeyStart) (inserted : List Token) :
    Tokens :=
  let position := start.number - tokens.taken
  { tokens with
    queue :=
      tokens.queue.take position ++ inserted ++ tokens.queue.drop position }

/-- Reads the colon before a content. What began before it on the line is a
key. -/
def readColon (tokens : Tokens) : Except Flaw Tokens :=
  match tokens.starts.lookup tokens.depth with
  | some start =>
      let column := start.place.column
      let opens := tokens.depth == 0 && decide (tokens.indent < column)
      let keyed :=
        tokens.insertAt start (if opens then [.blockRecord, .key] else [.key])
      .ok { keyed.push .content (keyed.text.drop 1) with
        keyAllowed := false
        blocks := if opens then column :: keyed.blocks else keyed.blocks
        starts := keyed.starts.filter fun entry => entry.1 != keyed.depth }
  | none =>
      (tokens.openFor .blockRecord).map fun opened =>
        { opened.push .content (opened.text.drop 1) with
          keyAllowed := opened.depth == 0 }

/-- Reads a token that may begin a key. -/
def readStart (tokens : Tokens)
    (read : List Glyph → Except Flaw (Token × List Glyph)) :
    Except Flaw Tokens := do
  let noted ← tokens.noteStart
  let (token, rest) ← read noted.text
  return { noted.push token rest with keyAllowed := false }

/-- Reads a plain phrase. After its last line a key may begin. -/
def readPhrase (tokens : Tokens) : Except Flaw Tokens :=
  tokens.noteStart.map fun noted =>
    let phrase := readPlain (noted.depth != 0) (noted.indent + 1) noted.text
    { noted.push (.scalar true phrase.content) phrase.rest with
      keyAllowed := phrase.endsLine }

/-- Reads a passage after its first character. -/
def readLong (tokens : Tokens) (folded : Bool) : Except Flaw Tokens := do
  let kept ← tokens.dropStart
  let (content, rest) ←
    readPassage folded (kept.indent + 1) (kept.text.drop 1)
  return { kept.push (.scalar false content) rest with keyAllowed := true }

/-- Makes a token of a phrase. -/
def asToken (make : List Char → Token) (found : Except Flaw Phrase) :
    Except Flaw (Token × List Glyph) :=
  found.map fun (content, rest) => (make content, rest)

/-- Reads one more token, and the ends of blocks before it. -/
def readNext (tokens : Tokens) : Except Flaw Tokens := do
  let current ← tokens.skip.dropStale
  let tokens := current.closeBlocks current.here.column
  let rest := tokens.text.drop 1
  let bracketed := tokens.depth != 0
  let separate := endsWord (charAt rest)
  match tokens.here.char, tokens.here.column with
  | '\x00', _ => tokens.readEnd
  | '%', 0 =>
      tokens.readBetween fun _ =>
        (readDirective rest).map fun (directive, next) =>
          (.directive directive, next)
  | '[', _ => tokens.readOpening .listStart
  | '\x7B', _ => tokens.readOpening .recordStart
  | ']', _ => tokens.readClosing .listEnd
  | '\x7D', _ => tokens.readClosing .recordEnd
  | ',', _ => tokens.readComma
  | '*', _ => tokens.readStart fun _ => asToken .alias (readAnchor rest)
  | '&', _ => tokens.readStart fun _ => asToken .anchor (readAnchor rest)
  | '!', _ =>
      tokens.readStart fun text =>
        (readTag text).map fun (tag, next) => (.tag tag, next)
  | '\'', _ =>
      tokens.readStart fun _ => asToken (.scalar false) (readSingle [] rest)
  | '"', _ =>
      tokens.readStart fun _ =>
        asToken (.scalar false) (readDouble (.gap false []) rest)
  | char, _ =>
      if atMark '-' tokens.text then
        tokens.readBetween fun text => .ok (.documentStart, text.drop 3)
      else if atMark '.' tokens.text then
        tokens.readBetween fun text => .ok (.documentEnd, text.drop 3)
      else if char == '-' && separate then tokens.readDash
      else if char == '?' && (bracketed || separate) then tokens.readKey
      else if char == ':' && (bracketed || separate) then tokens.readColon
      else if char == '|' && !bracketed then tokens.readLong false
      else if char == '>' && !bracketed then tokens.readLong true
      else if startsPlain bracketed tokens.text then tokens.readPhrase
      else throw .malformed

end Tokens

end TwinSchema.Yaml
