import TwinSchema.Proofs.Relaxed.Chunk
import TwinSchema.Proofs.Relaxed.Integers
import TwinSchema.Proofs.Relaxed.Quoting

/-!
# Literals quoted anew

A text in which either quote opens a literal falls into chunks, and so does the text
with double quotes only. The chunks agree one by one: code and double-quoted literals
are the same, and a single-quoted literal is respelled.
-/

namespace TwinSchema.Relaxed

open Text

/-- Splits a text in the middle of a chunk, where any of the given quotes opens a
literal: the rest of that chunk, and the chunks after it. -/
def splitQuotedFrom (quotes : List Char) : Cursor → List Char → List Char × List Chunk
  | _, [] => ([], [])
  | cursor, char :: rest =>
      let next := cursor.advance quotes char
      let (text, chunks) := splitQuotedFrom quotes next rest
      match cursor, next with
      | .code, .code => (char :: text, chunks)
      | .code, _ => ([], .literal (char :: text) :: chunks)
      | _, .code => ([char], Chunk.consCode text chunks)
      | _, _ => (char :: text, chunks)

/-- The chunks of a text in which any of the given quotes opens a literal. -/
def splitQuoted (quotes text : List Char) : List Chunk :=
  let (code, chunks) := splitQuotedFrom quotes .code text
  Chunk.consCode code chunks

/-- The characters of a literal, each with the backslash that protects it. -/
def spellings : List Char → List (List Char)
  | '\\' :: char :: rest => ['\\', char] :: spellings rest
  | char :: rest => [char] :: spellings rest
  | [] => []

/-- What stands for a character of a single-quoted literal in a double-quoted one: an
apostrophe needs no backslash, a double quote needs one, and the quotes around the
literal, which are its only bare apostrophes, become double quotes. -/
def respell (spelling : List Char) : List Char :=
  if spelling = ['\\', '\''] then ['\'']
  else if spelling = ['"'] then ['\\', '"']
  else if spelling = ['\''] then ['"']
  else spelling

/-- A literal in double quotes. -/
def respellLiteral (text : List Char) : List Char := (spellings text).flatMap respell

/-- A chunk with double quotes only. -/
def Chunk.doubled : Chunk → Chunk
  | .code text => .code text
  | .literal text => .literal (if text.head? = some '\'' then respellLiteral text else text)

namespace Quoting

/-- Where a scan for chunks of the strict text stands. -/
def inside : Quoting → Inside
  | .outside => .code
  | .double | .single => .literal

/-- Where a scan for single quotes stands in the strict text. -/
def strict : Quoting → Quoting
  | .outside => .outside
  | .double | .single => .double

/-- What becomes of the rest of a chunk. -/
def rest : Quoting → List Char → List Char
  | .outside | .double => id
  | .single => respellLiteral

end Quoting

section Steps

variable {quotes : List Char} {quote char : Char} (rest : List Char)

theorem splitQuotedFrom_code (notQuote : char ∉ quotes) :
    splitQuotedFrom quotes .code (char :: rest) =
      (char :: (splitQuotedFrom quotes .code rest).1,
        (splitQuotedFrom quotes .code rest).2) := by
  rw [splitQuotedFrom, Cursor.advance, if_neg notQuote]

theorem splitQuotedFrom_open (quoted : char ∈ quotes) :
    splitQuotedFrom quotes .code (char :: rest) =
      ([], .literal (char :: (splitQuotedFrom quotes (.literal char) rest).1) ::
        (splitQuotedFrom quotes (.literal char) rest).2) := by
  rw [splitQuotedFrom, Cursor.advance, if_pos quoted]

theorem splitQuotedFrom_close (different : quote ≠ '\\') :
    splitQuotedFrom quotes (.literal quote) (quote :: rest) =
      ([quote], Chunk.consCode (splitQuotedFrom quotes .code rest).1
        (splitQuotedFrom quotes .code rest).2) := by
  rw [splitQuotedFrom, Cursor.advance, if_neg different, if_pos rfl]

theorem splitQuotedFrom_plain (notEscape : char ≠ '\\') (notQuote : char ≠ quote) :
    splitQuotedFrom quotes (.literal quote) (char :: rest) =
      (char :: (splitQuotedFrom quotes (.literal quote) rest).1,
        (splitQuotedFrom quotes (.literal quote) rest).2) := by
  rw [splitQuotedFrom, Cursor.advance, if_neg notEscape, if_neg notQuote]

theorem splitQuotedFrom_escape :
    splitQuotedFrom quotes (.literal quote) ('\\' :: char :: rest) =
      ('\\' :: char :: (splitQuotedFrom quotes (.literal quote) rest).1,
        (splitQuotedFrom quotes (.literal quote) rest).2) := by
  rw [splitQuotedFrom, Cursor.advance, if_pos rfl, splitQuotedFrom, Cursor.advance]

theorem respellLiteral_plain (notEscape : char ≠ '\\') :
    respellLiteral (char :: rest) = respell [char] ++ respellLiteral rest := by
  rw [respellLiteral, spellings, List.flatMap_cons, respellLiteral]
  exact fun _ _ same => absurd same notEscape

theorem respellLiteral_escape :
    respellLiteral ('\\' :: char :: rest) = respell ['\\', char] ++ respellLiteral rest := by
  rw [respellLiteral, spellings, List.flatMap_cons, respellLiteral]

end Steps

/-- A chunk of code is none the longer for its literals. -/
theorem map_doubled_consCode (code : List Char) (chunks : List Chunk) :
    (Chunk.consCode code chunks).map Chunk.doubled =
      Chunk.consCode code (chunks.map Chunk.doubled) := by
  cases code <;> rfl

/-- Wherever they stand, the scan of a text at either quote and the scan of the requoted
text at double quotes find the same chunks, up to their spelling. -/
theorem splitFrom_requote (quoting : Quoting) (text : List Char) :
    splitFrom quoting.inside (requote quoting text) =
      (quoting.rest (splitQuotedFrom documentQuotes quoting.cursor text).1,
        (splitQuotedFrom documentQuotes quoting.cursor text).2.map Chunk.doubled) := by
  fun_induction requote quoting text with
    try simp only [Quoting.inside, Quoting.cursor, Quoting.rest] at *
  | case1 quoting => cases quoting <;> rfl
  | case2 rest ih =>
      rw [splitQuotedFrom_open _ (by decide), splitFrom, if_pos rfl, ih]
      rfl
  | case3 rest _ ih =>
      rw [splitQuotedFrom_open _ (by decide), splitFrom, if_pos rfl, ih, List.map_cons,
        Chunk.doubled, List.head?_cons, if_pos rfl, respellLiteral_plain _ (by decide)]
      rfl
  | case4 char rest noDouble noSingle ih =>
      have code : char ∉ documentQuotes := by simp [documentQuotes, noDouble, noSingle]
      rw [splitQuotedFrom_code _ code, splitFrom, if_neg noDouble, ih]
      rfl
  | case5 => rfl
  | case6 escaped rest ih =>
      rw [splitQuotedFrom_escape, splitFrom, if_neg (by decide), if_pos rfl, splitFrom, ih]
      rfl
  | case7 rest _ ih =>
      rw [splitQuotedFrom_close _ (by decide), map_doubled_consCode, splitFrom, if_pos rfl, ih]
      rfl
  | case8 char rest notEscape notQuote ih =>
      rw [splitQuotedFrom_plain _ notEscape notQuote, splitFrom, if_neg notQuote,
        if_neg notEscape, ih]
      rfl
  | case9 => rfl
  | case10 rest ih =>
      rw [splitQuotedFrom_escape, respellLiteral_escape, splitFrom, if_neg (by decide),
        if_neg (by decide), ih]
      rfl
  | case11 escaped rest notApostrophe ih =>
      have kept : respell ['\\', escaped] = ['\\', escaped] := by
        simpa [respell] using notApostrophe
      rw [splitQuotedFrom_escape, respellLiteral_escape, kept, splitFrom, if_neg (by decide),
        if_pos rfl, splitFrom, ih]
      rfl
  | case12 rest _ ih =>
      rw [splitQuotedFrom_close _ (by decide), map_doubled_consCode, splitFrom, if_pos rfl, ih]
      rfl
  | case13 rest _ _ ih =>
      rw [splitQuotedFrom_plain _ (by decide) (by decide), respellLiteral_plain _ (by decide),
        splitFrom, if_neg (by decide), if_pos rfl, splitFrom, ih]
      rfl
  | case14 char rest notEscape notSingle notDouble ih =>
      have kept : respell [char] = [char] := by simp [respell, notSingle, notDouble]
      rw [splitQuotedFrom_plain _ notEscape notSingle, respellLiteral_plain _ notEscape, kept,
        splitFrom, if_neg notDouble, if_neg notEscape, ih]
      rfl

/-- The chunks at either quote make up the text. -/
theorem flatMap_text_splitQuotedFrom (quotes : List Char) (cursor : Cursor)
    (text : List Char) :
    (splitQuotedFrom quotes cursor text).1 ++
      (splitQuotedFrom quotes cursor text).2.flatMap Chunk.text = text := by
  fun_induction splitQuotedFrom quotes cursor text with
  | case1 => rfl
  | case2 char rest next text chunks same _ ih =>
      rw [same] at ih
      exact congrArg (char :: ·) ih
  | case3 char rest next text chunks same _ ih =>
      rw [same] at ih
      exact congrArg (char :: ·) ih
  | case4 cursor char rest next text chunks same _ _ ih =>
      rw [same] at ih
      rw [flatMap_text_consCode, ih]
      rfl
  | case5 cursor char rest next text chunks same _ _ _ ih =>
      rw [same] at ih
      exact congrArg (char :: ·) ih

theorem flatMap_text_splitQuoted (quotes text : List Char) :
    (splitQuoted quotes text).flatMap Chunk.text = text := by
  rw [splitQuoted, flatMap_text_consCode, flatMap_text_splitQuotedFrom]

theorem isLiteral_doubled (chunk : Chunk) : chunk.doubled.isLiteral = chunk.isLiteral := by
  cases chunk <;> rfl

theorem requote_requote (quoting : Quoting) (text : List Char) :
    requote quoting.strict (requote quoting text) = requote quoting text := by
  fun_induction requote quoting text with
  | case1 quoting => cases quoting <;> rfl
  | case2 rest ih => exact congrArg ('"' :: ·) ih
  | case3 rest _ ih => exact congrArg ('"' :: ·) ih
  | case4 char rest noDouble noSingle ih =>
      rw [Quoting.strict, requote, if_neg noDouble, if_neg noSingle]
      exact congrArg (char :: ·) ih
  | case5 => rfl
  | case6 escaped rest ih => exact congrArg ('\\' :: escaped :: ·) ih
  | case7 rest _ ih => exact (requote_double_close _).trans (congrArg ('"' :: ·) ih)
  | case8 char rest notEscape notQuote ih =>
      rw [Quoting.strict, requote_double_plain _ notEscape notQuote]
      exact congrArg (char :: ·) ih
  | case9 => rfl
  | case10 rest ih =>
      rw [Quoting.strict, requote_double_plain _ (by decide) (by decide)]
      exact congrArg ('\'' :: ·) ih
  | case11 escaped rest _ ih => exact congrArg ('\\' :: escaped :: ·) ih
  | case12 rest _ ih => exact (requote_double_close _).trans (congrArg ('"' :: ·) ih)
  | case13 rest _ _ ih => exact congrArg ('\\' :: '"' :: ·) ih
  | case14 char rest notEscape _ notQuote ih =>
      rw [Quoting.strict, requote_double_plain _ notEscape notQuote]
      exact congrArg (char :: ·) ih

/-- A text and what becomes of it when every single-quoted literal is quoted anew fall
into the same chunks: as many literals, the code between them and the double-quoted
ones unchanged, and the single-quoted ones respelled. A second time changes nothing. -/
theorem splitChunks_convertSingleQuotes (text : List Char) :
    splitChunks (convertSingleQuotes text) =
        (splitQuoted documentQuotes text).map Chunk.doubled ∧
      (splitQuoted documentQuotes text).flatMap Chunk.text = text ∧
      (splitChunks (convertSingleQuotes text)).countP Chunk.isLiteral =
        (splitQuoted documentQuotes text).countP Chunk.isLiteral ∧
      convertSingleQuotes (convertSingleQuotes text) = convertSingleQuotes text := by
  have same : splitChunks (convertSingleQuotes text) =
      (splitQuoted documentQuotes text).map Chunk.doubled := by
    have step : splitFrom .code (requote .outside text) =
        ((splitQuotedFrom documentQuotes .code text).1,
          (splitQuotedFrom documentQuotes .code text).2.map Chunk.doubled) :=
      splitFrom_requote .outside text
    rw [splitChunks, convertSingleQuotes, step, splitQuoted, map_doubled_consCode]
  refine ⟨same, flatMap_text_splitQuoted documentQuotes text, ?_, requote_requote .outside text⟩
  rw [same, List.countP_map]
  exact List.countP_congr fun chunk _ => by rw [Function.comp_apply, isLiteral_doubled]

/-- Literals of both kinds side by side, with quotes of the other kind, escapes and an end
in the middle. -/
example :
    (splitQuoted documentQuotes "a'\\'b\"'\"c'\\\"\"'\\".toList).map Chunk.doubled =
      [.code ['a'], .literal "\"'b\\\"\"".toList, .literal "\"c'\\\"\"".toList,
        .literal "\"\\".toList] := by
  decide +kernel

end TwinSchema.Relaxed
