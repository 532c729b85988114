import TwinSchema.Proofs.Json.Integers
import TwinSchema.Proofs.Relaxed.Comment
import TwinSchema.Proofs.Relaxed.Quoting
import TwinSchema.Proofs.Text.Word

/-!
# Pieces of relaxed documents

A spelling falls into pieces: gaps, punctuation, keys, texts and words. Every
repair changes the pieces one by one. This module fixes what a piece looks like
after each repair, and shows that comments and apostrophes are dealt with piece
by piece.
-/

namespace TwinSchema.Relaxed

open Json

/-- The punctuation of a document. -/
inductive Mark where
  | openRecord
  | closeRecord
  | openList
  | closeList
  | comma
  | colon
  deriving DecidableEq

def Mark.char : Mark → Char
  | .openRecord => '{'
  | .closeRecord => '}'
  | .openList => '['
  | .closeList => ']'
  | .comma => ','
  | .colon => ':'

/-- A piece of a relaxed document. A dangling comma stands after the last part
of a list or a record. -/
inductive Piece where
  | gap (filler : Filler)
  | mark (mark : Mark)
  | dangling
  | bare (name : List Char) (nonempty : name ≠ [])
      (allowed : ∀ char ∈ name, Text.isKeyChar char = true)
  | literal (literal : Literal)
  | word (word : Word)

namespace Piece

def text : Piece → List Char
  | .gap filler => filler.text
  | .mark sign => [sign.char]
  | .dangling => [',']
  | .bare name _ _ => name
  | .literal quoted => quoted.text
  | .word spelled => spelled.text

/-- The piece once comments are removed. -/
def uncommented : Piece → List Char
  | .gap filler => filler.blanks
  | piece => piece.text

/-- The piece once every text is in double quotes. -/
def doubled : Piece → List Char
  | .literal quoted => quoted.doubled.text
  | piece => piece.uncommented

/-- The piece once dangling commas are dropped. -/
def undangled : Piece → List Char
  | .dangling => []
  | piece => piece.doubled

/-- The piece once bare keys are quoted, which makes it strict JSON. -/
def strict : Piece → List Char
  | .bare name _ _ => '"' :: name ++ ['"']
  | piece => piece.undangled

end Piece

/-- The characters that words and bare keys consist of. -/
def isWordLetter (char : Char) : Bool :=
  Text.isKeyChar char || char == '.' || char == '+' || char == '-'

theorem isWordLetter_of_isKeyChar {char : Char}
    (key : Text.isKeyChar char = true) : isWordLetter char = true := by
  simp [isWordLetter, key]

theorem isWordLetter_of_isDigit {char : Char} (digit : isDigit char = true) :
    isWordLetter char = true := by
  apply isWordLetter_of_isKeyChar
  simp only [isDigit, Bool.and_eq_true, decide_eq_true_eq] at digit
  simp only [Text.isKeyChar, Char.isAlphanum, Char.isDigit, Bool.or_eq_true,
    Bool.and_eq_true, decide_eq_true_eq]
  exact .inl (.inl (.inr digit))

/-- The letters of words are visible characters of the ASCII block. -/
theorem range_of_isWordLetter {char : Char}
    (letter : isWordLetter char = true) :
    0x21 ≤ char.toNat ∧ char.toNat < 0x80 := by
  simp only [isWordLetter, Text.isKeyChar, Bool.or_eq_true, beq_iff_eq] at letter
  rcases letter with ((((letter | rfl) | rfl) | rfl) | rfl) | rfl
  · exact Text.range_of_isAlphanum letter
  all_goals decide

theorem isBlank_eq_false_of_isWordLetter {char : Char}
    (letter : isWordLetter char = true) : Text.isBlank char = false := by
  have range := range_of_isWordLetter letter
  simp only [Text.isBlank, Bool.or_eq_false_iff, Bool.and_eq_false_iff,
    decide_eq_false_iff_not, beq_eq_false_iff_ne]
  omega

theorem isWordLetter_of_isNumberChar {char : Char}
    (number : isNumberChar char = true) : isWordLetter char = true := by
  simp only [isNumberChar, Bool.or_eq_true, beq_iff_eq] at number
  rcases number with ((((digit | rfl) | rfl) | rfl) | rfl) | rfl
  · exact isWordLetter_of_isDigit digit
  all_goals decide

theorem isNumberChar_of_isDigit {char : Char} (digit : isDigit char = true) :
    isNumberChar char = true := by
  simp [isNumberChar, digit]

theorem isNumberChar_of_mem_power (power : Power) :
    ∀ char ∈ power.text, isNumberChar char = true := by
  have mark : isNumberChar power.mark = true := by
    rcases power.marked with same | same <;> rw [same] <;> decide
  intro char member
  rcases List.mem_cons.mp member with rfl | inside
  · exact mark
  · rcases List.mem_append.mp inside with sign | digit
    · rcases power.signed char (by simpa using sign) with rfl | rfl <;> decide
    · exact isNumberChar_of_isDigit (power.decimal char digit)

theorem isNumberChar_of_mem_unsigned (numeral : Numeral) :
    ∀ char ∈ numeral.unsigned, isNumberChar char = true := by
  intro char member
  simp only [Numeral.unsigned, List.mem_append] at member
  rcases member with inside | inside | inside
  · exact isNumberChar_of_isDigit (numeral.wholeDecimal char inside)
  · rw [Numeral.fractionText] at inside
    split at inside
    · simp at inside
    · rcases List.mem_cons.mp inside with rfl | digit
      · decide
      · exact isNumberChar_of_isDigit (numeral.fractionDecimal char digit)
  · rw [Numeral.powerText] at inside
    split at inside
    · simp at inside
    · exact isNumberChar_of_mem_power _ char inside

theorem isNumberChar_of_mem_numeral (numeral : Numeral) :
    ∀ char ∈ numeral.text, isNumberChar char = true := by
  intro char member
  rw [Numeral.text] at member
  split at member
  · rcases List.mem_cons.mp member with rfl | inside
    · decide
    · exact isNumberChar_of_mem_unsigned numeral char inside
  · exact isNumberChar_of_mem_unsigned numeral char member

theorem isWordLetter_of_mem_word (word : Word) :
    ∀ char ∈ word.text, isWordLetter char = true := by
  cases word with
  | number numeral =>
      exact fun char member =>
        isWordLetter_of_isNumberChar (isNumberChar_of_mem_numeral numeral char member)
  | null => exact List.all_eq_true.mp (by decide)
  | true => exact List.all_eq_true.mp (by decide)
  | false => exact List.all_eq_true.mp (by decide)
  | nan => exact List.all_eq_true.mp (by decide)
  | infinity => exact List.all_eq_true.mp (by decide)
  | negativeInfinity => exact List.all_eq_true.mp (by decide)

/-- The characters that neither open a comment nor a text. -/
def isQuiet (char : Char) : Bool :=
  char != '"' && char != '\'' && char != '/'

theorem isQuiet_of_isWordLetter {char : Char}
    (letter : isWordLetter char = true) : isQuiet char = true := by
  simp only [isQuiet, Bool.and_eq_true, bne_iff_ne, ne_eq]
  refine ⟨⟨?_, ?_⟩, ?_⟩ <;>
  · rintro rfl
    simp [isWordLetter, Text.isKeyChar] at letter

theorem isQuiet_of_isSeparator {char : Char}
    (separates : isSeparator char = true) : isQuiet char = true := by
  rcases isSeparator_iff.mp separates with rfl | rfl | rfl | rfl <;> decide

theorem stripFrom_quiet {code : List Char}
    (quiet : ∀ char ∈ code, isQuiet char = true) (rest : List Char) :
    stripFrom Text.documentQuotes (.text .code) (code ++ rest) =
      code ++ stripFrom Text.documentQuotes (.text .code) rest := by
  refine stripFrom_code ?_ rest
  intro char member
  have := quiet char member
  simp only [isQuiet, Bool.and_eq_true, bne_iff_ne, ne_eq] at this
  simp [Text.documentQuotes, this]

theorem requote_quiet {code : List Char}
    (quiet : ∀ char ∈ code, isQuiet char = true) (rest : List Char) :
    requote .outside (code ++ rest) = code ++ requote .outside rest := by
  induction code with
  | nil => rfl
  | cons char code ih =>
      have first := quiet char List.mem_cons_self
      simp only [isQuiet, Bool.and_eq_true, bne_iff_ne, ne_eq] at first
      rw [List.cons_append, requote, if_neg first.1.1, if_neg first.1.2,
        ih fun next member => quiet next (List.mem_cons_of_mem char member),
        List.cons_append]

/-- Comments between tokens leave blanks. -/
theorem Filler.isSeparator_of_mem (filler : Filler) :
    ∀ char ∈ filler.blanks, isSeparator char = true := by
  cases filler with
  | blank char separates => simpa [blanks] using separates
  | block body within =>
      intro char member
      have feed : char = '\n' := by simpa using (List.mem_filter.mp member).2
      rw [feed]
      decide
  | line body ending within ends =>
      rcases ends with rfl | rfl <;> simp [blanks] <;> decide

namespace Piece

/-- Apart from comments and texts, pieces are quiet. -/
theorem isQuiet_of_mem (piece : Piece)
    (noText : ∀ literal, piece ≠ .literal literal) :
    ∀ char ∈ piece.uncommented, isQuiet char = true := by
  cases piece with
  | gap filler =>
      exact fun char member =>
        isQuiet_of_isSeparator (filler.isSeparator_of_mem char member)
  | mark sign => cases sign <;> simp [uncommented, text, Mark.char] <;> decide
  | dangling => simp [uncommented, text]; decide
  | bare name nonempty allowed =>
      exact fun char member => isQuiet_of_isWordLetter
        (isWordLetter_of_isKeyChar (allowed char member))
  | literal quoted => exact absurd rfl (noText quoted)
  | word spelled =>
      exact fun char member =>
        isQuiet_of_isWordLetter (isWordLetter_of_mem_word spelled char member)

/-- Comments are removed piece by piece. -/
theorem stripFrom_text (piece : Piece) (rest : List Char) :
    stripFrom Text.documentQuotes (.text .code) (piece.text ++ rest) =
      piece.uncommented ++
        stripFrom Text.documentQuotes (.text .code) rest := by
  cases piece with
  | gap filler =>
      cases filler with
      | blank char separates =>
          have quiet : ∀ next ∈ [char], isQuiet next = true := by
            simpa using isQuiet_of_isSeparator separates
          exact stripFrom_quiet quiet rest
      | block body within =>
          have removed :=
            stripFrom_blockComment Text.documentQuotes within rest
          simp only [text, uncommented, Filler.text, Filler.blanks,
            List.cons_append, List.append_assoc, List.nil_append]
          rw [← removed, stripFrom.eq_def]
          simp [Text.documentQuotes]
      | line body ending within ends =>
          have removed :=
            stripFrom_lineComment Text.documentQuotes within ends rest
          simp only [text, uncommented, Filler.text, Filler.blanks,
            List.cons_append, List.append_assoc, List.nil_append]
          rw [← removed, stripFrom.eq_def]
          simp [Text.documentQuotes]
  | literal quoted =>
      have member : quoted.quote ∈ Text.documentQuotes := by
        rcases quoted.quoted with same | same <;> simp [same, Text.documentQuotes]
      have different : quoted.quote ≠ '\\' := by
        rcases quoted.quoted with same | same <;> simp [same]
      simpa [text, uncommented, Literal.text] using
        stripFrom_literal quoted.literalBody member different rest
  | mark sign =>
      exact stripFrom_quiet (isQuiet_of_mem (.mark sign) (by simp)) rest
  | dangling =>
      exact stripFrom_quiet (isQuiet_of_mem .dangling (by simp)) rest
  | bare name nonempty allowed =>
      exact stripFrom_quiet
        (isQuiet_of_mem (.bare name nonempty allowed) (by simp)) rest
  | word spelled =>
      exact stripFrom_quiet (isQuiet_of_mem (.word spelled) (by simp))
        rest

/-- Texts are put between double quotes piece by piece. -/
theorem requote_uncommented (piece : Piece) (rest : List Char) :
    requote .outside (piece.uncommented ++ rest) =
      piece.doubled ++ requote .outside rest := by
  cases piece with
  | literal quoted => exact quoted.requote_text rest
  | gap filler =>
      exact requote_quiet (isQuiet_of_mem (.gap filler) (by simp)) rest
  | mark sign =>
      exact requote_quiet (isQuiet_of_mem (.mark sign) (by simp)) rest
  | dangling =>
      exact requote_quiet (isQuiet_of_mem .dangling (by simp)) rest
  | bare name nonempty allowed =>
      exact requote_quiet
        (isQuiet_of_mem (.bare name nonempty allowed) (by simp)) rest
  | word spelled =>
      exact requote_quiet (isQuiet_of_mem (.word spelled) (by simp))
        rest

end Piece

theorem stripComments_pieces (pieces : List Piece) :
    stripComments Text.documentQuotes (pieces.flatMap Piece.text) =
      pieces.flatMap Piece.uncommented := by
  induction pieces with
  | nil => rfl
  | cons piece pieces ih =>
      rw [List.flatMap_cons, List.flatMap_cons, stripComments,
        Piece.stripFrom_text, ← ih, stripComments]

theorem convertSingleQuotes_pieces (pieces : List Piece) :
    convertSingleQuotes (pieces.flatMap Piece.uncommented) =
      pieces.flatMap Piece.doubled := by
  induction pieces with
  | nil => rfl
  | cons piece pieces ih =>
      rw [List.flatMap_cons, List.flatMap_cons, convertSingleQuotes,
        Piece.requote_uncommented, ← ih, convertSingleQuotes]

end TwinSchema.Relaxed
