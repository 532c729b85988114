import TwinSchema.Proofs.Text.Literal
import TwinSchema.Source.Bracket

/-!
# Balanced source text

In a balanced text every bracket is closed and every literal ended. The scans
that look for a closing bracket, for the end of a statement and for separating
commas pass over a balanced text as a whole; what they look for can stand only
outside its brackets.
-/

namespace TwinSchema.Source

open Text

/-- Text in which brackets and literals are closed, with characters of a class
alone outside of them. -/
inductive Balanced : (surface : Char → Bool) → List Char → Prop where
  | nil {surface : Char → Bool} : Balanced surface []
  | char {surface : Char → Bool} {char : Char} (noOpener : isOpener char = false)
      (noCloser : isCloser char = false) (noQuote : char ∉ sourceQuotes)
      (allowed : surface char = true) : Balanced surface [char]
  | literal {surface : Char → Bool} {quote : Char} {body : List Char}
      (quoted : quote ∈ sourceQuotes) (inside : LiteralBody quote body) :
      Balanced surface (quote :: (body ++ [quote]))
  | enclosed {surface : Char → Bool} {opening closing : Char}
      {inside : List Char} (opens : isOpener opening = true)
      (closes : isCloser closing = true)
      (within : Balanced (fun _ => true) inside) :
      Balanced surface (opening :: (inside ++ [closing]))
  | append {surface : Char → Bool} {left right : List Char}
      (first : Balanced surface left) (second : Balanced surface right) :
      Balanced surface (left ++ right)

namespace Balanced

/-- More characters may be allowed outside of brackets. -/
theorem mono {surface wider : Char → Bool} {text : List Char}
    (balanced : Balanced surface text)
    (allows : ∀ char, surface char = true → wider char = true) :
    Balanced wider text := by
  induction balanced with
  | nil => exact .nil
  | char noOpener noCloser noQuote allowed =>
      exact .char noOpener noCloser noQuote (allows _ allowed)
  | literal quoted inside => exact .literal quoted inside
  | enclosed opens closes within _ => exact .enclosed opens closes within
  | append _ _ ihFirst ihSecond =>
      exact .append (ihFirst allows) (ihSecond allows)

theorem of_plain {surface : Char → Bool} {code : List Char}
    (plain : ∀ char ∈ code, isOpener char = false ∧ isCloser char = false ∧
      char ∉ sourceQuotes ∧ surface char = true) : Balanced surface code := by
  induction code with
  | nil => exact .nil
  | cons char code ih =>
      obtain ⟨noOpener, noCloser, noQuote, allowed⟩ :=
        plain char List.mem_cons_self
      exact .append (.char noOpener noCloser noQuote allowed)
        (ih fun next member => plain next (List.mem_cons_of_mem char member))

theorem cons {surface : Char → Bool} {char : Char} {rest : List Char}
    (noOpener : isOpener char = false) (noCloser : isCloser char = false)
    (noQuote : char ∉ sourceQuotes) (allowed : surface char = true)
    (others : Balanced surface rest) : Balanced surface (char :: rest) :=
  .append (.char noOpener noCloser noQuote allowed) others

end Balanced

theorem ne_escape_of_mem {quote : Char} (quoted : quote ∈ sourceQuotes) :
    quote ≠ '\\' := by
  rintro rfl
  simp [sourceQuotes] at quoted

theorem not_bracket_of_mem {quote : Char} (quoted : quote ∈ sourceQuotes) :
    isOpener quote = false ∧ isCloser quote = false := by
  simp only [sourceQuotes, List.mem_cons, List.not_mem_nil, or_false] at quoted
  rcases quoted with rfl | rfl | rfl <;> decide

theorem not_isOpener_of_isCloser {char : Char} (closes : isCloser char = true) :
    isOpener char = false := by
  simp only [isCloser, Bool.or_eq_true, beq_iff_eq] at closes
  rcases closes with (rfl | rfl) | rfl <;> decide

theorem foldr_enclose (text : List Char)
    (found : Option (List Char × List Char)) :
    text.foldr enclose found =
      found.map fun (inside, rest) => (text ++ inside, rest) := by
  induction text with
  | nil => simp
  | cons char text ih =>
      rw [List.foldr_cons, ih]
      cases found <;> rfl

theorem splitClosing_code {char : Char} (noOpener : isOpener char = false)
    (noCloser : isCloser char = false) (depth : Nat) (rest : List Char) :
    splitClosing .code depth (char :: rest) =
      enclose char
        (splitClosing (Cursor.code.advance sourceQuotes char) depth rest) := by
  rw [splitClosing.eq_def]
  simp [noOpener, noCloser]

theorem splitClosing_literal {quote : Char} {body : List Char}
    (quoted : quote ∈ sourceQuotes) (inside : LiteralBody quote body)
    (depth : Nat) (rest : List Char) :
    splitClosing .code depth (quote :: (body ++ quote :: rest)) =
      (quote :: (body ++ [quote])).foldr enclose
        (splitClosing .code depth rest) := by
  obtain ⟨noOpener, noCloser⟩ := not_bracket_of_mem quoted
  have passed := inside.scan sourceQuotes enclose
    (fun cursor text => splitClosing cursor depth text)
    (fun cursor noCode char rest => by cases cursor <;> simp_all [splitClosing])
    (ne_escape_of_mem quoted) rest
  rw [splitClosing_code noOpener noCloser, Cursor.advance, if_pos quoted, passed]
  rfl

/-- The search for a closing bracket passes over balanced text. -/
theorem splitClosing_append {surface : Char → Bool} {text : List Char}
    (balanced : Balanced surface text) (depth : Nat) (rest : List Char) :
    splitClosing .code depth (text ++ rest) =
      text.foldr enclose (splitClosing .code depth rest) := by
  induction balanced generalizing depth rest with
  | nil => rfl
  | char noOpener noCloser noQuote allowed =>
      rw [List.singleton_append, splitClosing_code noOpener noCloser,
        Cursor.advance, if_neg noQuote]
      rfl
  | literal quoted inside =>
      rw [List.cons_append, List.append_assoc, List.singleton_append,
        splitClosing_literal quoted inside]
  | enclosed opens closes within ih =>
      have later : ∀ closing, isCloser closing = true →
          splitClosing .code (depth + 1) (closing :: rest) =
            enclose closing (splitClosing .code depth rest) := by
        intro closing closes
        rw [splitClosing.eq_def]
        simp [not_isOpener_of_isCloser closes, closes]
      rw [List.cons_append, List.append_assoc, List.singleton_append,
        splitClosing.eq_def]
      simp only [opens, if_true]
      rw [ih, later _ closes]
      simp
  | append first second ihFirst ihSecond =>
      rw [List.append_assoc, ihFirst, ihSecond, List.foldr_append]

/-- What balanced text encloses ends where its bracket closes. -/
theorem splitClosing_balanced {surface : Char → Bool} {inside : List Char}
    (balanced : Balanced surface inside) {closing : Char}
    (closes : isCloser closing = true) (rest : List Char) :
    splitClosing .code 0 (inside ++ closing :: rest) = some (inside, rest) := by
  have ends : splitClosing .code 0 (closing :: rest) = some ([], rest) := by
    rw [splitClosing.eq_def]
    simp [not_isOpener_of_isCloser closes, closes]
  rw [splitClosing_append balanced, ends, foldr_enclose]
  simp

/-- The characters that do not end a statement outside of brackets. -/
def keepsStatement (char : Char) : Bool := char != ';' && char != '\n'

theorem statement_code {char : Char} (noOpener : isOpener char = false)
    (noCloser : isCloser char = false) {depth : Nat}
    (keeps : depth = 0 → keepsStatement char = true) (rest : List Char) :
    statement .code depth (char :: rest) =
      char :: statement (Cursor.code.advance sourceQuotes char) depth rest := by
  have goesOn : ¬(depth = 0 ∧ endsStatement char rest = true) := by
    rintro ⟨outside, ends⟩
    have kept := keeps outside
    simp only [keepsStatement, Bool.and_eq_true, bne_iff_ne, ne_eq] at kept
    simp [endsStatement, kept] at ends
  rw [statement.eq_def]
  simp [noOpener, noCloser, goesOn]

theorem statement_literal {quote : Char} {body : List Char}
    (quoted : quote ∈ sourceQuotes) (inside : LiteralBody quote body)
    (depth : Nat) (rest : List Char) :
    statement .code depth (quote :: (body ++ quote :: rest)) =
      quote :: (body ++ quote :: statement .code depth rest) := by
  obtain ⟨noOpener, noCloser⟩ := not_bracket_of_mem quoted
  have keeps : keepsStatement quote = true := by
    simp only [sourceQuotes, List.mem_cons, List.not_mem_nil, or_false] at quoted
    rcases quoted with rfl | rfl | rfl <;> decide
  have passed := inside.scan sourceQuotes List.cons
    (fun cursor text => statement cursor depth text)
    (fun cursor noCode char rest => by cases cursor <;> simp_all [statement])
    (ne_escape_of_mem quoted) rest
  rw [statement_code noOpener noCloser (fun _ => keeps), Cursor.advance,
    if_pos quoted, passed]
  simp

theorem statement_append {surface : Char → Bool} {text : List Char}
    (balanced : Balanced surface text) (depth : Nat)
    (keeps : depth = 0 → ∀ char, surface char = true →
      keepsStatement char = true) (rest : List Char) :
    statement .code depth (text ++ rest) =
      text ++ statement .code depth rest := by
  induction balanced generalizing depth rest with
  | nil => rfl
  | char noOpener noCloser noQuote allowed =>
      rw [List.singleton_append, statement_code noOpener noCloser
        (fun outside => keeps outside _ allowed), Cursor.advance, if_neg noQuote]
      rfl
  | literal quoted inside =>
      rw [List.cons_append, List.append_assoc, List.singleton_append,
        statement_literal quoted inside]
      simp
  | enclosed opens closes within ih =>
      have later : ∀ closing, isCloser closing = true →
          statement .code (depth + 1) (closing :: rest) =
            closing :: statement .code depth rest := by
        intro closing closes
        rw [statement.eq_def]
        simp [not_isOpener_of_isCloser closes, closes]
      rw [List.cons_append, List.append_assoc, List.singleton_append,
        statement.eq_def]
      simp only [opens, if_true]
      rw [ih _ (by simp), later _ closes]
      simp
  | append first second ihFirst ihSecond =>
      rw [List.append_assoc, ihFirst _ keeps, ihSecond _ keeps, List.append_assoc]

theorem statement_balanced {text : List Char}
    (balanced : Balanced keepsStatement text) : statement .code 0 text = text := by
  have whole := statement_append balanced 0 (fun _ _ kept => kept) []
  rw [List.append_nil] at whole
  rw [whole, statement, List.append_nil]

/-- Puts one more character in front of the first piece. -/
def extend (char : Char) (pieces : List Char × List (List Char)) :
    List Char × List (List Char) :=
  (char :: pieces.1, pieces.2)

theorem foldr_extend (text : List Char) (pieces : List Char × List (List Char)) :
    text.foldr extend pieces = (text ++ pieces.1, pieces.2) := by
  induction text with
  | nil => rfl
  | cons char text ih =>
      rw [List.foldr_cons, ih]
      rfl

theorem piecesFrom_code {char : Char} {level : Int}
    (noComma : level = 0 → char ≠ ',') (rest : List Char) :
    piecesFrom .code level (char :: rest) =
      extend char (piecesFrom (Cursor.code.advance sourceQuotes char)
        (levelAfter level char) rest) := by
  have goesOn : ¬(char = ',' ∧ level = 0) := fun ⟨comma, outside⟩ =>
    noComma outside comma
  rw [piecesFrom.eq_def]
  simp only [goesOn, if_false]
  rfl

theorem piecesFrom_literal {quote : Char} {body : List Char}
    (quoted : quote ∈ sourceQuotes) (inside : LiteralBody quote body)
    (level : Int) (rest : List Char) :
    piecesFrom .code level (quote :: (body ++ quote :: rest)) =
      (quote :: (body ++ [quote])).foldr extend
        (piecesFrom .code level rest) := by
  obtain ⟨noOpener, noCloser⟩ := not_bracket_of_mem quoted
  have noComma : quote ≠ ',' := by
    rintro rfl
    simp [sourceQuotes] at quoted
  have passed := inside.scan sourceQuotes extend
    (fun cursor text => piecesFrom cursor level text)
    (fun cursor noCode char rest => by
      cases cursor <;> simp_all [piecesFrom, extend])
    (ne_escape_of_mem quoted) rest
  rw [piecesFrom_code (fun _ => noComma), levelAfter, Cursor.advance,
    if_pos quoted, noOpener, noCloser]
  simp only [Bool.false_eq_true, if_false]
  rw [passed]
  rfl

/-- Balanced text belongs to a piece as a whole. -/
theorem piecesFrom_append {surface : Char → Bool} {text : List Char}
    (balanced : Balanced surface text) {level : Int} (inside : 0 ≤ level)
    (noComma : level = 0 → ∀ char, surface char = true → char ≠ ',')
    (rest : List Char) :
    piecesFrom .code level (text ++ rest) =
      text.foldr extend (piecesFrom .code level rest) := by
  induction balanced generalizing level rest with
  | nil => rfl
  | char noOpener noCloser noQuote allowed =>
      rw [List.singleton_append, piecesFrom_code
        (fun outside => noComma outside _ allowed), Cursor.advance,
        if_neg noQuote, levelAfter, noOpener, noCloser]
      rfl
  | literal quoted body =>
      rw [List.cons_append, List.append_assoc, List.singleton_append,
        piecesFrom_literal quoted body]
  | @enclosed surface opening closing text opens closes within ih =>
      have opened : opening ≠ ',' := by rintro rfl; cases opens
      have closed : closing ≠ ',' := by rintro rfl; cases closes
      have noQuote : opening ∉ sourceQuotes ∧ closing ∉ sourceQuotes := by
        constructor
        · intro quoted
          rw [(not_bracket_of_mem quoted).1] at opens
          cases opens
        · intro quoted
          rw [(not_bracket_of_mem quoted).2] at closes
          cases closes
      rw [List.cons_append, List.append_assoc, List.singleton_append,
        piecesFrom_code (fun _ => opened), levelAfter, if_pos opens,
        Cursor.advance, if_neg noQuote.1, ih (by omega) (by omega),
        piecesFrom_code (fun _ => closed), levelAfter,
        not_isOpener_of_isCloser closes, if_neg (by decide), if_pos closes,
        Cursor.advance, if_neg noQuote.2, Int.add_sub_cancel]
      simp
  | append first second ihFirst ihSecond =>
      rw [List.append_assoc, ihFirst inside noComma, ihSecond inside noComma,
        List.foldr_append]

/-- The characters that do not separate pieces outside of brackets. -/
def keepsPiece (char : Char) : Bool := char != ','

/-- A comma on level zero ends a piece. -/
theorem piecesFrom_comma (rest : List Char) :
    piecesFrom .code 0 (',' :: rest) =
      ([], (piecesFrom .code 0 rest).1 :: (piecesFrom .code 0 rest).2) := by
  rw [piecesFrom.eq_def]
  rfl

end TwinSchema.Source
