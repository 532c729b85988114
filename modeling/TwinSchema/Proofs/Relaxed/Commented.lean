import TwinSchema.Proofs.Relaxed.Comment
import TwinSchema.Relaxed.Reader

/-!
# Commented documents

The scan for comments goes on behind a text from the region in which it leaves
the text. Behind code, a comment on one line leaves nothing to be read, whatever
stands in it and in the document.
-/

namespace TwinSchema.Relaxed

open Text

/-- The region behind a text that begins in a region. -/
def Region.after (quotes : List Char) : Region → List Char → Region
  | region, [] => region
  | .lineComment, char :: rest =>
      if char = '\r' ∨ char = '\n' then Region.after quotes (.text .code) rest
      else Region.after quotes .lineComment rest
  | .blockComment, char :: rest =>
      match char, rest with
      | '*', '/' :: behind => Region.after quotes (.text .code) behind
      | _, others => Region.after quotes .blockComment others
  | .text .code, char :: rest =>
      if char ∈ quotes then Region.after quotes (.text (.literal char)) rest
      else
        match char, rest with
        | '/', '/' :: behind => Region.after quotes .lineComment behind
        | '/', '*' :: behind => Region.after quotes .blockComment behind
        | _, others => Region.after quotes (.text .code) others
  | .text cursor, char :: rest =>
      Region.after quotes (.text (cursor.advance quotes char)) rest

variable {quotes : List Char}

/-- The scan goes on behind a text that ends in code or in a literal, where no
slash is left that may begin a comment. -/
theorem stripFrom_append {region : Region} {first : List Char}
    {cursor : Cursor} (ends : region.after quotes first = .text cursor)
    (whole : first.getLast? ≠ some '/') (second : List Char) :
    stripFrom quotes region (first ++ second) =
      stripFrom quotes region first ++ stripFrom quotes (.text cursor) second := by
  have tail {char : Char} {rest : List Char} (whole : (char :: rest).getLast? ≠ some '/') :
      rest.getLast? ≠ some '/' := by
    intro last
    apply whole
    rw [List.getLast?_cons, last]
    rfl
  fun_induction Region.after quotes region first with
  | case1 region =>
      subst ends
      simp [stripFrom]
  | case2 char rest ending ih =>
      simp [stripFrom, ending, ih ends (tail whole)]
  | case3 char rest goesOn ih =>
      simp [stripFrom, goesOn, ih ends (tail whole)]
  | case4 behind ih =>
      simp [stripFrom, ih ends (tail (tail whole))]
  | case5 char rest noEnd ih =>
      have inside : ∀ more, ¬(char = '*' ∧ (rest ++ more).head? = some '/') := by
        rintro more ⟨rfl, head⟩
        cases rest with
        | nil => cases ends
        | cons next rest =>
            cases head
            exact noEnd rest rfl rfl
      rw [List.cons_append, stripFrom_block (inside second), ih ends (tail whole),
        stripFrom_block (by simpa using inside []), List.append_assoc]
  | case6 char rest quoted ih =>
      rw [List.cons_append, stripFrom_quote quoted, stripFrom_quote quoted,
        ih ends (tail whole), List.cons_append]
  | case7 behind notQuote ih =>
      simp only [List.cons_append, stripFrom_slashes notQuote]
      exact ih ends (tail (tail whole))
  | case8 behind notQuote ih =>
      simp only [List.cons_append, stripFrom_slashStar notQuote]
      exact ih ends (tail (tail whole))
  | case9 char notQuote rest noLine noBlock ih =>
      have noComment : ∀ more, ¬(char = '/' ∧
          ((rest ++ more).head? = some '/' ∨ (rest ++ more).head? = some '*')) := by
        rintro more ⟨rfl, head⟩
        cases rest with
        | nil => exact whole rfl
        | cons next rest =>
            rcases head with same | same <;> cases same
            · exact noLine rest rfl rfl
            · exact noBlock rest rfl rfl
      rw [List.cons_append, stripFrom_plain notQuote (noComment second), ih ends (tail whole),
        stripFrom_plain notQuote (by simpa using noComment []), List.cons_append]
  | case10 cursor char rest literal ih =>
      cases cursor with
      | code => exact absurd rfl literal
      | literal | escape =>
          simp only [List.cons_append, stripFrom, ih ends (tail whole)]

theorem stripComments_block {comment : List Char} (noQuote : '/' ∉ quotes)
    (within : occursIn ['*', '/'] comment = false) (line : '\n' ∉ comment)
    (after : List Char) :
    stripComments quotes ('/' :: '*' :: (comment ++ '*' :: '/' :: after)) =
      stripComments quotes after := by
  have noFeed : comment.filter (fun char => char == '\n') = [] := by
    apply List.filter_eq_nil_iff.mpr
    intro char member feed
    rw [beq_iff_eq] at feed
    exact line (feed ▸ member)
  rw [stripComments, stripFrom_slashStar noQuote, stripFrom_blockComment quotes within, noFeed]
  rfl

theorem stripComments_line {comment : List Char} (noQuote : '/' ∉ quotes)
    (noFeed : '\n' ∉ quotes) (within : ∀ char ∈ comment, char ≠ '\r' ∧ char ≠ '\n')
    (after : List Char) :
    stripComments quotes ('/' :: '/' :: (comment ++ '\n' :: after)) =
      stripComments quotes ('\n' :: after) := by
  rw [stripComments, stripFrom_slashes noQuote, stripFrom_lineComment quotes within (.inr rfl),
    stripComments, stripFrom_char noFeed (by decide)]

/-- A document with something visible in it counts only without its comments. -/
theorem decode_congr {first second : List Char} (visibleFirst : allBlank first = false)
    (visibleSecond : allBlank second = false)
    (same : stripComments documentQuotes first = stripComments documentQuotes second) :
    decode first = decode second := by
  rw [decode, decode, visibleFirst, visibleSecond, same]

/-- A document is read as it is without a comment on one line behind code of it,
and no differently is it refused. -/
theorem decode_commented {before after : List Char}
    (ends : Region.after documentQuotes (.text .code) before = .text .code)
    (whole : before.getLast? ≠ some '/') (visible : allBlank (before ++ after) = false)
    (comment : List Char) :
    (occursIn ['*', '/'] comment = false → '\n' ∉ comment →
      decode (before ++ '/' :: '*' :: (comment ++ '*' :: '/' :: after)) =
        decode (before ++ after)) ∧
    ('\r' ∉ comment → '\n' ∉ comment →
      decode (before ++ '/' :: '/' :: (comment ++ '\n' :: after)) =
        decode (before ++ '\n' :: after)) := by
  have split (rest : List Char) : stripComments documentQuotes (before ++ rest) =
      stripComments documentQuotes before ++ stripComments documentQuotes rest :=
    stripFrom_append ends whole rest
  have commented (rest : List Char) : allBlank (before ++ '/' :: rest) = false := by
    simp [allBlank, isBlank]
  constructor
  · intro within line
    apply decode_congr (commented _) visible
    rw [split, split, stripComments_block (by decide) within line]
  · intro noReturn line
    have feed : allBlank (before ++ '\n' :: after) = false := by
      simp only [allBlank, List.all_append, List.all_cons, Bool.and_eq_false_iff] at visible ⊢
      exact visible.imp_right .inr
    have inside : ∀ char ∈ comment, char ≠ '\r' ∧ char ≠ '\n' := by
      intro char member
      exact ⟨fun same => noReturn (same ▸ member), fun same => line (same ▸ member)⟩
    apply decode_congr (commented _) feed
    rw [split, split, stripComments_line (by decide) (by decide) inside]

/-- A comment with quotes and slashes, behind a document that has both. -/
theorem decode_commented_quotes :
    let before := "\x7b'a//b': \"it's\", /* \" */ ".toList
    let comment := " 'twas // \" /* * ".toList
    let after := "c: [1,]\x7d /".toList
    Region.after documentQuotes (.text .code) before = .text .code ∧
      before.getLast? ≠ some '/' ∧ allBlank (before ++ after) = false ∧
      occursIn ['*', '/'] comment = false ∧ '\r' ∉ comment ∧ '\n' ∉ comment ∧
      decode (before ++ '/' :: '*' :: (comment ++ '*' :: '/' :: after)) =
        decode (before ++ after) ∧
      decode (before ++ '/' :: '/' :: (comment ++ '\n' :: after)) =
        decode (before ++ '\n' :: after) := by
  intro before comment after
  have ends : Region.after documentQuotes (.text .code) before = .text .code := by
    decide +kernel
  have whole : before.getLast? ≠ some '/' := by decide +kernel
  have visible : allBlank (before ++ after) = false := by decide +kernel
  have within : occursIn ['*', '/'] comment = false := by decide +kernel
  have noReturn : '\r' ∉ comment := by decide +kernel
  have line : '\n' ∉ comment := by decide +kernel
  obtain ⟨block, lined⟩ := decode_commented ends whole visible comment
  exact ⟨ends, whole, visible, within, noReturn, line, block within line,
    lined noReturn line⟩

end TwinSchema.Relaxed
