import TwinSchema.Proofs.Relaxed.Comment

/-!
# Texts without comments

A text is free of comments when a scan never meets the beginning of one in code. What
remains of a text without its comments is such a text, since a slash that is kept is
followed by the very character that showed it to be no beginning of a comment. Such a
text stays as it is, so removing comments twice is removing them once.
-/

namespace TwinSchema.Relaxed

open Text

def BeginsComment (text : List Char) : Prop := ['/', '/'] <+: text ∨ ['/', '*'] <+: text

/-- Whether a scan of a text comes to no comment in code. -/
def CommentFree (quotes : List Char) (cursor : Cursor) (text : List Char) : Prop :=
  ∀ front rest, text = front ++ rest → cursor.after quotes front = .code →
    ¬BeginsComment rest

variable {quotes : List Char} {cursor : Cursor} {char : Char} {text rest : List Char}

theorem beginsComment_cons :
    BeginsComment (char :: rest) ↔
      char = '/' ∧ (rest.head? = some '/' ∨ rest.head? = some '*') := by
  cases rest with
  | nil => simp [BeginsComment]
  | cons next rest => simp [BeginsComment, List.cons_prefix_cons, ← and_or_left, eq_comm]

theorem commentFree_nil : CommentFree quotes cursor [] := by
  intro front rest same _
  rw [(List.append_eq_nil_iff.mp same.symm).2]
  simp [BeginsComment]

/-- One character more is scanned. -/
theorem commentFree_cons :
    CommentFree quotes cursor (char :: rest) ↔
      (cursor = .code → ¬BeginsComment (char :: rest)) ∧
        CommentFree quotes (cursor.advance quotes char) rest := by
  constructor
  · intro free
    exact ⟨fun code => free [] (char :: rest) rfl code,
      fun front behind same code => free (char :: front) behind (congrArg _ same) code⟩
  · rintro ⟨here, further⟩ front behind same code
    cases front with
    | nil =>
        obtain rfl : char :: rest = behind := same
        exact here code
    | cons first front =>
        obtain ⟨rfl, others⟩ := List.cons.inj same
        exact further front behind others code

theorem stripFrom_commentFree (free : CommentFree quotes cursor text) :
    stripFrom quotes (.text cursor) text = text := by
  induction text generalizing cursor with
  | nil => rw [stripFrom]
  | cons char rest ih =>
      obtain ⟨here, further⟩ := commentFree_cons.mp free
      have kept := ih further
      by_cases code : cursor = .code
      · obtain rfl := code
        by_cases quoted : char ∈ quotes
        · rw [Cursor.advance, if_pos quoted] at kept
          rw [stripFrom_quote quoted, kept]
        · rw [Cursor.advance, if_neg quoted] at kept
          rw [stripFrom_plain quoted (beginsComment_cons.not.mp (here rfl)), kept]
      · rw [stripFrom_inside code, kept]

theorem CommentFree.code (free : CommentFree quotes .code rest) (notQuote : char ∉ quotes)
    (noComment : ¬BeginsComment (char :: rest)) : CommentFree quotes .code (char :: rest) := by
  refine commentFree_cons.mpr ⟨fun _ => noComment, ?_⟩
  rwa [Cursor.advance, if_neg notQuote]

/-- What does not begin with a slash is kept as far as its first character. -/
theorem head?_stripFrom_code (other : rest.head? ≠ some '/') :
    (stripFrom quotes (.text .code) rest).head? = rest.head? := by
  cases rest with
  | nil => rw [stripFrom]
  | cons char rest =>
      by_cases quoted : char ∈ quotes
      · rw [stripFrom_quote quoted]
        rfl
      · have notSlash : char ≠ '/' := by simpa using other
        rw [stripFrom_char quoted notSlash]
        rfl

/-- What remains of a text is free of comments, wherever the scan of it begins. -/
theorem commentFree_stripFrom (noSlash : '/' ∉ quotes)
    (noBreak : ∀ char, char = '\r' ∨ char = '\n' → char ∉ quotes)
    (region : Region) (text : List Char) :
    CommentFree quotes region.cursor (stripFrom quotes region text) := by
  have noComment {char : Char} {rest : List Char} (ending : char = '\r' ∨ char = '\n') :
      ¬BeginsComment (char :: rest) := by
    rw [beginsComment_cons]
    rintro ⟨rfl, -⟩
    simp at ending
  fun_induction stripFrom quotes region text with
  | case1 => exact commentFree_nil
  | case2 char rest ending ih => exact ih.code (noBreak char ending) (noComment ending)
  | case3 char rest _ ih => exact ih
  | case4 after ih => exact ih
  | case5 others ih => exact ih.code (noBreak '\n' (.inr rfl)) (noComment (.inr rfl))
  | case6 char others _ _ ih => exact ih
  | case7 char rest quoted ih =>
      refine commentFree_cons.mpr ⟨fun _ begins => ?_, ?_⟩
      · exact noSlash ((beginsComment_cons.mp begins).1 ▸ quoted)
      · rwa [Region.cursor, Cursor.advance, if_pos quoted]
  | case8 after _ ih => exact ih
  | case9 after _ ih => exact ih
  | case10 char notQuote others noLine noBlock ih =>
      refine ih.code notQuote ?_
      -- A slash in front stays for the sake of the character behind it, which stays too.
      rw [beginsComment_cons]
      rintro ⟨rfl, next⟩
      have different : others.head? ≠ some '/' := by
        intro head
        obtain ⟨after, rfl⟩ := List.head?_eq_some_iff.mp head
        exact noLine after rfl rfl
      rw [head?_stripFrom_code different] at next
      rcases next with line | block
      · exact different line
      · obtain ⟨after, rfl⟩ := List.head?_eq_some_iff.mp block
        exact noBlock after rfl rfl
  | case11 cursor char rest notCode ih =>
      exact commentFree_cons.mpr ⟨fun code => absurd code notCode, ih⟩

/-- A text without its comments, with the quotes of a document or of source text, is
free of comments, and removing comments from it changes nothing. Only a text that is
free of comments stays as it is. -/
theorem commentFree_stripComments (text : List Char)
    (known : quotes = documentQuotes ∨ quotes = sourceQuotes) :
    CommentFree quotes .code (stripComments quotes text) ∧
      stripComments quotes (stripComments quotes text) = stripComments quotes text ∧
      (stripComments quotes text = text ↔ CommentFree quotes .code text) := by
  have noSlash : '/' ∉ quotes := by rcases known with rfl | rfl <;> decide
  have noBreak : ∀ char, char = '\r' ∨ char = '\n' → char ∉ quotes := by
    rcases known with rfl | rfl <;> rintro char (rfl | rfl) <;> decide
  have free (text : List Char) : CommentFree quotes .code (stripComments quotes text) :=
    commentFree_stripFrom noSlash noBreak (.text .code) text
  have kept {text : List Char} (free : CommentFree quotes .code text) :
      stripComments quotes text = text := stripFrom_commentFree free
  exact ⟨free text, kept (free text), fun same => same ▸ free text, kept⟩

/-- Slashes, stars and quotes around comments of both kinds, the last one without an
end. -/
theorem commentFree_stripComments_joined :
    let text := "a / /* b */ / '//' */* c\n * / */\"/* d\\\"\" // e\r/ *f\x60/* // g".toList
    stripComments documentQuotes text =
        "a /  / '//' *\n\"/* d\\\"\" \r/ *f\x60".toList ∧
      CommentFree documentQuotes .code (stripComments documentQuotes text) ∧
      CommentFree sourceQuotes .code (stripComments sourceQuotes text) ∧
      stripComments documentQuotes (stripComments documentQuotes text) =
        stripComments documentQuotes text ∧
      stripComments sourceQuotes (stripComments sourceQuotes text) =
        stripComments sourceQuotes text := by
  intro text
  obtain ⟨document, documentTwice, -⟩ := commentFree_stripComments text (.inl rfl)
  obtain ⟨source, sourceTwice, -⟩ := commentFree_stripComments text (.inr rfl)
  exact ⟨by decide +kernel, document, source, documentTwice, sourceTwice⟩

end TwinSchema.Relaxed
