import TwinSchema.Proofs.Text.Lines
import TwinSchema.Proofs.Text.Literal
import TwinSchema.Relaxed.Comment
import TwinSchema.Text.Blank

/-!
# Removing comments

What a scan for comments does to code, to literals and to comments, each
followed by any text. Code and literals stay, and of a comment only its line
breaks remain.
-/

namespace TwinSchema.Relaxed

open Text

variable {quotes : List Char}

/-- Where a scan for literals stands in a region. Comments are code to it. -/
def Region.cursor : Region → Cursor
  | .text cursor => cursor
  | .lineComment | .blockComment => .code

theorem stripFrom_quote {char : Char} (quoted : char ∈ quotes) (rest : List Char) :
    stripFrom quotes (.text .code) (char :: rest) =
      char :: stripFrom quotes (.text (.literal char)) rest := by
  rw [stripFrom.eq_def]
  simp [quoted]

theorem stripFrom_plain {char : Char} {rest : List Char}
    (notQuote : char ∉ quotes)
    (noComment : ¬(char = '/' ∧ (rest.head? = some '/' ∨ rest.head? = some '*'))) :
    stripFrom quotes (.text .code) (char :: rest) =
      char :: stripFrom quotes (.text .code) rest := by
  rw [stripFrom.eq_def]
  simp only [notQuote, if_false]
  split
  next => simp at noComment
  next => simp at noComment
  next => rfl

theorem stripFrom_char {char : Char} (notQuote : char ∉ quotes)
    (notSlash : char ≠ '/') (rest : List Char) :
    stripFrom quotes (.text .code) (char :: rest) =
      char :: stripFrom quotes (.text .code) rest :=
  stripFrom_plain notQuote fun comment => notSlash comment.1

theorem stripFrom_slashes (notQuote : '/' ∉ quotes) (rest : List Char) :
    stripFrom quotes (.text .code) ('/' :: '/' :: rest) =
      stripFrom quotes .lineComment rest :=
  if_neg notQuote

theorem stripFrom_slashStar (notQuote : '/' ∉ quotes) (rest : List Char) :
    stripFrom quotes (.text .code) ('/' :: '*' :: rest) =
      stripFrom quotes .blockComment rest :=
  if_neg notQuote

theorem stripFrom_code {code : List Char}
    (plain : ∀ char ∈ code, char ∉ quotes ∧ char ≠ '/') (rest : List Char) :
    stripFrom quotes (.text .code) (code ++ rest) =
      code ++ stripFrom quotes (.text .code) rest := by
  induction code with
  | nil => rfl
  | cons char code ih =>
      obtain ⟨notQuote, notSlash⟩ := plain char List.mem_cons_self
      rw [List.cons_append, stripFrom_char notQuote notSlash,
        ih fun next member => plain next (List.mem_cons_of_mem char member),
        List.cons_append]

/-- Inside of a literal every character stays. -/
theorem stripFrom_inside {cursor : Cursor} (noCode : cursor ≠ .code) (char : Char)
    (rest : List Char) :
    stripFrom quotes (.text cursor) (char :: rest) =
      char :: stripFrom quotes (.text (cursor.advance quotes char)) rest := by
  cases cursor <;> simp_all [stripFrom]

/-- A literal stays, whatever stands in it. -/
theorem stripFrom_literal {quote : Char} {body : List Char}
    (inside : LiteralBody quote body) (member : quote ∈ quotes)
    (different : quote ≠ '\\') (rest : List Char) :
    stripFrom quotes (.text .code) (quote :: (body ++ quote :: rest)) =
      quote :: (body ++ quote :: stripFrom quotes (.text .code) rest) := by
  have passed := inside.scan quotes List.cons
    (fun cursor text => stripFrom quotes (.text cursor) text)
    (fun _ noCode => stripFrom_inside noCode) different rest
  rw [stripFrom_quote member, passed]
  simp

/-- Where no star and slash stand, a block comment goes on. -/
theorem stripFrom_block {char : Char} {rest : List Char}
    (noEnd : ¬(char = '*' ∧ rest.head? = some '/')) :
    stripFrom quotes .blockComment (char :: rest) =
      ([char].filter fun char => char == '\n') ++
        stripFrom quotes .blockComment rest := by
  rw [stripFrom.eq_def]
  simp only
  split
  next => simp at noEnd
  next => rfl
  next noFeed _ => simpa using noFeed

theorem stripFrom_blockComment (quotes : List Char) {body : List Char}
    (within : occursIn ['*', '/'] body = false) (rest : List Char) :
    stripFrom quotes .blockComment (body ++ '*' :: '/' :: rest) =
      (body.filter fun char => char == '\n') ++
        stripFrom quotes (.text .code) rest := by
  induction body with
  | nil => rfl
  | cons char body ih =>
      simp only [occursIn, Bool.or_eq_false_iff] at within
      obtain ⟨notHere, notLater⟩ := within
      have noEnd : ¬(char = '*' ∧ (body ++ '*' :: '/' :: rest).head? = some '/') := by
        rintro ⟨rfl, head⟩
        cases body with
        | nil => simp at head
        | cons next body =>
            cases head
            simp at notHere
      rw [List.cons_append, stripFrom_block noEnd, ih notLater, ← List.append_assoc,
        ← List.filter_append, List.singleton_append]

theorem stripFrom_lineComment (quotes : List Char) {body : List Char}
    {ending : Char} (within : ∀ char ∈ body, char ≠ '\r' ∧ char ≠ '\n')
    (ends : ending = '\r' ∨ ending = '\n') (rest : List Char) :
    stripFrom quotes .lineComment (body ++ ending :: rest) =
      ending :: stripFrom quotes (.text .code) rest := by
  induction body with
  | nil => simp [stripFrom, ends]
  | cons char body ih =>
      have inside := within char List.mem_cons_self
      have others := fun next member =>
        within next (List.mem_cons_of_mem char member)
      simp [stripFrom, inside, ih others]

/-- Of comments their line feeds remain, and everything else stays. -/
theorem thinned_stripFrom (region : Region) (text : List Char) :
    Thinned (stripFrom quotes region text) text := by
  fun_induction stripFrom quotes region text with
  | case1 => exact .nil
  | case2 _ _ _ ih => exact .keep ih
  | case3 _ _ goesOn ih => exact .drop (fun feed => goesOn (.inr feed)) ih
  | case4 _ ih => exact .drop (by decide) (.drop (by decide) ih)
  | case5 _ ih => exact .keep ih
  | case6 _ _ _ noFeed ih => exact .drop noFeed ih
  | case7 _ _ _ ih => exact .keep ih
  | case8 _ _ ih => exact .drop (by decide) (.drop (by decide) ih)
  | case9 _ _ ih => exact .drop (by decide) (.drop (by decide) ih)
  | case10 _ _ _ _ _ ih => exact .keep ih
  | case11 _ _ _ _ ih => exact .keep ih

end TwinSchema.Relaxed
