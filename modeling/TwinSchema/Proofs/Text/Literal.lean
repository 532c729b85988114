import Mathlib.Data.List.Induction
import TwinSchema.Text.Literal

/-!
# Inside quoted literals

What stands between the quotes of a literal protects the characters in it: no
character ends the literal early, and no backslash reaches over its end. A scan
that enters such a literal leaves it again at its closing quote.
-/

namespace TwinSchema.Text

theorem Cursor.after_append (quotes : List Char) (cursor : Cursor) (front text : List Char) :
    cursor.after quotes (front ++ text) =
      (cursor.after quotes front).after quotes text :=
  List.foldl_append

theorem Cursor.mem_of_after {quotes text : List Char} {quote : Char}
    (inside : Cursor.code.after quotes text = .literal quote ∨
      Cursor.code.after quotes text = .escape quote) : quote ∈ quotes := by
  induction text using List.reverseRecOn with
  | nil => rcases inside with code | code <;> cases code
  | append_singleton text char ih =>
      rw [Cursor.after_append, Cursor.after, List.foldl_cons, List.foldl_nil] at inside
      generalize Cursor.code.after quotes text = before at ih inside
      cases before with
      | code =>
          rw [Cursor.advance] at inside
          split at inside
          next opens =>
            obtain rfl : char = quote := by simpa using inside
            exact opens
          next => simp at inside
      | literal opened =>
          refine ih (.inl ?_)
          rw [Cursor.advance] at inside
          split at inside
          next => simpa using inside
          next =>
            split at inside
            next => simp at inside
            next => simpa using inside
      | escape opened => exact ih (.inr (by simpa [Cursor.advance] using inside))

/-- A text is marked part by part. -/
theorem cells_append (quotes : List Char) (cursor : Cursor) (front text : List Char) :
    cells quotes cursor (front ++ text) =
      cells quotes cursor front ++ cells quotes (cursor.after quotes front) text := by
  induction front generalizing cursor with
  | nil => rfl
  | cons char front ih =>
      rw [List.cons_append, cells, ih, cells]
      rfl

/-- A text that may stand between two quotes of a kind. -/
inductive LiteralBody (quote : Char) : List Char → Prop where
  | nil : LiteralBody quote []
  | plain {char : Char} {rest : List Char} (notEscape : char ≠ '\\')
      (notQuote : char ≠ quote) (others : LiteralBody quote rest) :
      LiteralBody quote (char :: rest)
  | escaped {char : Char} {rest : List Char}
      (others : LiteralBody quote rest) :
      LiteralBody quote ('\\' :: char :: rest)

namespace LiteralBody

variable {quote : Char} {quotes body : List Char}

theorem append {other : List Char} (first : LiteralBody quote body)
    (second : LiteralBody quote other) : LiteralBody quote (body ++ other) := by
  induction first with
  | nil => exact second
  | plain notEscape notQuote _ ih => exact .plain notEscape notQuote ih
  | escaped _ ih => exact .escaped ih

/-- Characters that are neither the quote nor a backslash. -/
theorem of_plain
    (plain : ∀ char ∈ body, char ≠ '\\' ∧ char ≠ quote) :
    LiteralBody quote body := by
  induction body with
  | nil => exact .nil
  | cons char rest ih =>
      obtain ⟨notEscape, notQuote⟩ := plain char List.mem_cons_self
      exact .plain notEscape notQuote
        (ih fun next member => plain next (List.mem_cons_of_mem char member))

theorem tail {first : Char} {rest : List Char}
    (inside : LiteralBody quote (first :: rest)) (notEscape : first ≠ '\\') :
    LiteralBody quote rest := by
  cases inside with
  | plain _ _ others => exact others
  | escaped => exact absurd rfl notEscape

/-- A literal is closed at one place only. -/
theorem unique {other rest more : List Char} (inside : LiteralBody quote body)
    (different : quote ≠ '\\') (second : LiteralBody quote other)
    (same : body ++ quote :: rest = other ++ quote :: more) :
    body = other ∧ rest = more := by
  induction inside generalizing other with
  | nil =>
      cases second with
      | nil => exact ⟨rfl, (List.cons.inj same).2⟩
      | plain _ notQuote _ => exact absurd (List.cons.inj same).1.symm notQuote
      | escaped _ => exact absurd (List.cons.inj same).1 different
  | plain notEscape notQuote _ ih =>
      cases second with
      | nil => exact absurd (List.cons.inj same).1 notQuote
      | plain _ _ others =>
          obtain ⟨rfl, tail⟩ := List.cons.inj same
          obtain ⟨rfl, rest⟩ := ih others tail
          exact ⟨rfl, rest⟩
      | escaped _ => exact absurd (List.cons.inj same).1 notEscape
  | escaped _ ih =>
      cases second with
      | nil => exact absurd (List.cons.inj same).1.symm different
      | plain notEscape _ _ => exact absurd (List.cons.inj same).1.symm notEscape
      | escaped others =>
          obtain ⟨rfl, tail⟩ := List.cons.inj (List.cons.inj same).2
          obtain ⟨rfl, rest⟩ := ih others tail
          exact ⟨rfl, rest⟩

/-- A scan that treats the characters inside literals alike takes the body of a
literal and its closing quote one by one, and goes on in code. -/
theorem scan {Result : Type} (quotes : List Char)
    (emit : Char → Result → Result) (run : Cursor → List Char → Result)
    (step : ∀ cursor, cursor ≠ .code → ∀ char rest,
      run cursor (char :: rest) = emit char (run (cursor.advance quotes char) rest))
    (inside : LiteralBody quote body) (different : quote ≠ '\\')
    (rest : List Char) :
    run (.literal quote) (body ++ quote :: rest) =
      (body ++ [quote]).foldr emit (run .code rest) := by
  induction inside with
  | nil => simp [step, Cursor.advance, different]
  | plain notEscape notQuote _ ih =>
      simp [step, Cursor.advance, notEscape, notQuote, ih]
  | escaped _ ih => simp [step, Cursor.advance, ih]

theorem after_closed (inside : LiteralBody quote body) (quotes : List Char)
    (different : quote ≠ '\\') :
    (Cursor.literal quote).after quotes (body ++ [quote]) = .code := by
  induction inside with
  | nil => simp [Cursor.after, Cursor.advance, different]
  | plain notEscape notQuote _ ih =>
      rw [List.cons_append, Cursor.after, List.foldl_cons, Cursor.advance,
        if_neg notEscape, if_neg notQuote]
      exact ih
  | escaped _ ih => exact ih

theorem cells_quoted (inside : LiteralBody quote body) (member : quote ∈ quotes)
    (different : quote ≠ '\\') (rest : List Char) :
    cells quotes .code (quote :: (body ++ quote :: rest)) =
      (quote :: (body ++ [quote])).map (fun char => ⟨char, true⟩) ++
        cells quotes .code rest := by
  have marked := inside.scan quotes (fun char marked => ⟨char, true⟩ :: marked)
    (cells quotes)
    (fun cursor noCode char rest => by cases cursor <;> simp_all [cells])
    different rest
  rw [cells, Cursor.advance, if_pos member, marked]
  simp

end LiteralBody

end TwinSchema.Text
