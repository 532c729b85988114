/-!
# Chunks of a document

A document text falls into double-quoted literals and the code between them.
Repairs look at one code chunk at a time and never at a literal.
-/

namespace TwinSchema.Relaxed

/-- A piece of a text: code without any double quote, or one literal with its
quotes. A literal that is never closed runs to the end of the text. -/
inductive Chunk where
  | code (text : List Char)
  | literal (text : List Char)
  deriving DecidableEq, Repr

namespace Chunk

def text : Chunk → List Char
  | .code text => text
  | .literal text => text

def isLiteral : Chunk → Bool
  | .code _ => false
  | .literal _ => true

/-- Code of any length in front of other chunks; without code there is no
chunk. -/
def consCode : List Char → List Chunk → List Chunk
  | [], chunks => chunks
  | text, chunks => .code text :: chunks

end Chunk

/-- What a scan for chunks is in. -/
inductive Inside where
  | code
  | literal
  | escape
  deriving DecidableEq, Repr

/-- Splits a text in the middle of a chunk: the rest of that chunk, and the
chunks after it. -/
def splitFrom : Inside → List Char → List Char × List Chunk
  | _, [] => ([], [])
  | .code, char :: rest =>
      if char = '"' then
        let (body, chunks) := splitFrom .literal rest
        ([], .literal ('"' :: body) :: chunks)
      else
        let (code, chunks) := splitFrom .code rest
        (char :: code, chunks)
  | .literal, char :: rest =>
      if char = '"' then
        let (code, chunks) := splitFrom .code rest
        (['"'], Chunk.consCode code chunks)
      else
        let (body, chunks) :=
          splitFrom (if char = '\\' then .escape else .literal) rest
        (char :: body, chunks)
  | .escape, char :: rest =>
      let (body, chunks) := splitFrom .literal rest
      (char :: body, chunks)

/-- The chunks of a text, in order. -/
def splitChunks (text : List Char) : List Chunk :=
  let (code, chunks) := splitFrom .code text
  Chunk.consCode code chunks

/-- Changes the code of a chunk and leaves a literal alone. -/
def Chunk.mapCode (change : List Char → List Char) : Chunk → List Char
  | .code text => change text
  | .literal text => text

def mapCode (change : List Char → List Char) (text : List Char) :
    List Char :=
  (splitChunks text).flatMap (Chunk.mapCode change)

end TwinSchema.Relaxed
