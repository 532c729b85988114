import TwinSchema.Proofs.Node.Throughout
import TwinSchema.Proofs.Source.Safe
import TwinSchema.Proofs.Text.Spacing

/-!
# Text on one line

The text that is written for a node stands on one line. Its braces and brackets are
closed by ones of their kind, and its literals are ended, whatever stands in them.
-/

namespace TwinSchema

namespace Source

open Json Text

/-- The characters that neither open nor close a level or a literal, and end no line. -/
def isInline (char : Char) : Bool :=
  char != '\n' && decide (char ∉ sourceQuotes) &&
    !(char == '{' || char == '[') && !(char == '}' || char == ']')

theorem isInline_iff {char : Char} : isInline char = true ↔
    char ≠ '\n' ∧ char ∉ sourceQuotes ∧ (char == '{' || char == '[') = false ∧
      (char == '}' || char == ']') = false := by
  simp only [isInline, Bool.and_eq_true, decide_eq_true_eq, Bool.not_eq_true', bne_iff_ne,
    and_assoc]

/-- Text on one line whose braces, brackets and literals are closed. -/
inductive OneLine : List Char → Prop where
  | nil : OneLine []
  | char {char : Char} (inline : isInline char = true) : OneLine [char]
  | literal {quote : Char} {body : List Char} (quoted : quote ∈ sourceQuotes)
      (inside : LiteralBody quote body) (noFeed : '\n' ∉ body) :
      OneLine (quote :: (body ++ [quote]))
  | enclosed (pair : Pair) {inside : List Char} (within : OneLine inside) :
      OneLine (pair.opening :: (inside ++ [pair.closing]))
  | append {left right : List Char} (first : OneLine left) (second : OneLine right) :
      OneLine (left ++ right)

namespace OneLine

variable {text : List Char}

theorem cons {char : Char} (inline : isInline char = true) (others : OneLine text) :
    OneLine (char :: text) :=
  .append (.char inline) others

theorem noFeed (line : OneLine text) : '\n' ∉ text := by
  induction line with
  | nil => simp
  | char inline => simpa using Ne.symm (isInline_iff.mp inline).1
  | @literal quote body quoted _ noFeed =>
      have different : '\n' ≠ quote := by
        rintro rfl
        simp [sourceQuotes] at quoted
      simp [different, noFeed]
  | enclosed pair _ ih => cases pair <;> simp [Pair.opening, Pair.closing, ih]
  | append _ _ first second => simp [first, second]

theorem after_code (line : OneLine text) : Cursor.code.after sourceQuotes text = .code := by
  induction line with
  | nil => rfl
  | char inline => exact if_neg (isInline_iff.mp inline).2.1
  | @literal quote body quoted inside _ =>
      have opened : Cursor.code.advance sourceQuotes quote = .literal quote := if_pos quoted
      rw [Cursor.after, List.foldl_cons, opened, ← Cursor.after]
      exact inside.after_closed sourceQuotes (ne_escape_of_mem quoted)
  | @enclosed pair inside _ ih =>
      have opened : Cursor.code.after sourceQuotes [pair.opening] = .code := by
        cases pair <;> rfl
      have closed : Cursor.code.after sourceQuotes [pair.closing] = .code := by
        cases pair <;> rfl
      rw [← List.singleton_append, Cursor.after_append, opened, Cursor.after_append, ih,
        closed]
  | append _ _ first second => rw [Cursor.after_append, first, second]

end OneLine

end Source

end TwinSchema
