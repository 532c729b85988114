import TwinSchema.Proofs.Source.Blanks
import TwinSchema.Proofs.Source.Leading

/-!
# Lines in front of source text

Comments and imports on lines of their own in front of source text change
nothing in what is read: the imports are erased, of the comments only blanks
remain, and blanks in front of clean text count for nothing. An import of names
is erased up to the first clause that names a module. The statements therefore
ask that no import in front of the text ends inside a comment or in the text
itself, and show what happens where one does.
-/

namespace TwinSchema.Source

open Text

section Erasing

variable {form : List Char → Option (List Char)}

/-- The lines of a text, each with all that follows it, where the text itself may
begin one. -/
def lineStarts (startsLine : Bool) (text : List Char) : List (List Char) :=
  (if startsLine then [text] else []) ++ laterLines text

theorem laterLines_cons (char : Char) (rest : List Char) :
    laterLines (char :: rest) = lineStarts (char == '\n') rest := by
  by_cases feed : char = '\n' <;> simp [laterLines, lineStarts, feed]

theorem laterLines_subset_lineStarts (startsLine : Bool) (text : List Char) :
    laterLines text ⊆ lineStarts startsLine text :=
  List.subset_append_right _ _

/-- An erased statement is skipped. -/
theorem eraseFrom_skip (form : List Char → Option (List Char)) (startsLine : Bool)
    (skipped left rest : List Char) : ∃ starts,
      lineStarts starts left ⊆ lineStarts startsLine (skipped ++ left) ∧
      eraseFrom form skipped.length startsLine (skipped ++ (left ++ rest)) =
        eraseFrom form 0 starts (left ++ rest) := by
  induction skipped generalizing startsLine with
  | nil => exact ⟨startsLine, List.Subset.refl _, rfl⟩
  | cons char skipped ih =>
      obtain ⟨starts, lines, erased⟩ := ih (char == '\n')
      rw [← laterLines_cons] at lines
      exact ⟨starts, List.Subset.trans lines
        (laterLines_subset_lineStarts startsLine _), erased⟩

/-- A character stays where no statement begins. -/
theorem eraseFrom_pass {startsLine : Bool} {char : Char} {rest : List Char}
    (fails : startsLine = true → form (char :: rest) = none) :
    eraseFrom form 0 startsLine (char :: rest) =
      char :: eraseFrom form 0 (char == '\n') rest := by
  cases startsLine with
  | false => simp [eraseFrom]
  | true => simp [eraseFrom, fails rfl]

/-- A statement at the beginning of a line is erased. -/
theorem eraseFrom_match {char : Char} {tail left rest : List Char}
    (matched : form (char :: (tail ++ rest)) = some (left ++ rest))
    (shorter : left <:+ tail) :
    ∃ starts, lineStarts starts left ⊆ laterLines (char :: tail) ∧
      eraseFrom form 0 true (char :: (tail ++ rest)) =
        eraseFrom form 0 starts (left ++ rest) := by
  obtain ⟨skipped, rfl⟩ := shorter
  obtain ⟨starts, lines, erased⟩ := eraseFrom_skip form false skipped left rest
  have length : (skipped ++ left ++ rest).length - (left ++ rest).length =
      skipped.length := by
    simp
  refine ⟨starts, ?_, ?_⟩
  · rw [laterLines_cons]
    exact List.Subset.trans lines (laterLines_subset_lineStarts _ _)
  · rw [eraseFrom]
    simp only [if_true, matched]
    rw [length, List.append_assoc, erased]

/-- The first character of a statement is erased at least. -/
theorem eraseFrom_match_cons {char : Char} {tail left rest : List Char}
    (matched : form (char :: (tail ++ rest)) = some (left ++ rest))
    (isSuffix : left <:+ char :: tail) :
    ∃ starts last, last <:+ tail ∧
      lineStarts starts last ⊆ laterLines (char :: tail) ∧
      eraseFrom form 0 true (char :: (tail ++ rest)) =
        eraseFrom form 0 starts (last ++ rest) := by
  rcases List.suffix_cons_iff.mp isSuffix with rfl | shorter
  · refine ⟨false, tail, List.suffix_refl _, ?_, ?_⟩
    · rw [laterLines_cons]
      exact laterLines_subset_lineStarts _ tail
    · rw [eraseFrom]
      simp [matched]
  · obtain ⟨starts, lines, erased⟩ := eraseFrom_match matched shorter
    exact ⟨starts, left, shorter, lines, erased⟩

/-- A statement that ends before a line feed leaves the line feed. -/
theorem eraseFrom_statement (spares : SparesCalm form) {text rest : List Char}
    (matched : form text = some ('\n' :: rest)) (isSuffix : '\n' :: rest <:+ text) :
    eraseFrom form 0 true text = '\n' :: eraseFrom form 0 true rest := by
  have calm : Calm ('\n' :: rest) := LeadingLine.empty.calm_comment rfl rest
  cases text with
  | nil => cases List.suffix_nil.mp isSuffix
  | cons char tail =>
      rcases List.suffix_cons_iff.mp isSuffix with same | shorter
      · rw [← same, spares _ calm] at matched
        cases matched
      · rw [← List.append_nil tail, ← List.append_nil ('\n' :: rest)] at matched
        obtain ⟨starts, -, erased⟩ := eraseFrom_match matched shorter
        rw [List.append_nil, List.append_nil] at erased
        rw [erased]
        cases starts with
        | false => rfl
        | true =>
            rw [eraseFrom_lineStart (spares _ calm)]
            rfl

theorem eraseFrom_calm (spares : SparesCalm form) {text rest : List Char}
    (calm : ∀ inner ∈ laterLines text, Calm (inner ++ '\n' :: rest)) :
    eraseFrom form 0 false (text ++ '\n' :: rest) =
      text ++ '\n' :: eraseFrom form 0 true rest := by
  induction text with
  | nil => rfl
  | cons char text ih =>
      rw [laterLines] at calm
      split at calm
      next feed =>
        have broken : eraseFrom form 0 false ('\n' :: (text ++ '\n' :: rest)) =
            '\n' :: eraseFrom form 0 true (text ++ '\n' :: rest) := rfl
        rw [feed, List.cons_append, broken,
          eraseFrom_lineStart (spares _ (calm _ List.mem_cons_self)),
          ih fun inner member => calm inner (List.mem_cons_of_mem _ member),
          List.cons_append]
      next noFeed =>
        have alone : '\n' ∉ [char] := by simpa using Ne.symm noFeed
        rw [List.cons_append, ← List.singleton_append, eraseFrom_line form alone,
          ih calm, List.singleton_append, List.cons_append]

theorem occursIn_end_cons (char : Char) (rest : List Char) :
    occursIn ['*', '/'] (char :: rest) =
      ((char == '*' && rest.head? == some '/') || occursIn ['*', '/'] rest) := by
  rw [occursIn]
  cases rest <;> simp [List.isPrefixOf, BEq.comm]

theorem occursIn_end_suffix {suffix text : List Char} (isSuffix : suffix <:+ text)
    (free : occursIn ['*', '/'] text = false) : occursIn ['*', '/'] suffix = false := by
  obtain ⟨before, rfl⟩ := isSuffix
  induction before with
  | nil => exact free
  | cons char before ih =>
      rw [List.cons_append, occursIn, Bool.or_eq_false_iff] at free
      exact ih free.2

/-- No statement begins at the end of a comment. -/
theorem eraseFrom_end (spares : SparesCalm form) (startsLine : Bool) (rest : List Char) :
    eraseFrom form 0 startsLine ('*' :: '/' :: '\n' :: rest) =
      '*' :: '/' :: '\n' :: eraseFrom form 0 true rest := by
  have calm : Calm ('*' :: '/' :: '\n' :: rest) :=
    calm_nil.append (by decide) (by decide) (by decide) _
  rw [eraseFrom_pass fun _ => spares _ calm]
  rfl

/-- A comment in which every statement ends stays a comment. -/
theorem eraseFrom_comment (spares : SparesCalm form) (startsLine : Bool)
    (body : List Char) {rest : List Char}
    (within : occursIn ['*', '/'] body = false)
    (inside : ∀ inner ∈ lineStarts startsLine body,
      ∀ after ∈ form (inner ++ '*' :: '/' :: '\n' :: rest),
        ∃ left, left <:+ inner ∧ after = left ++ '*' :: '/' :: '\n' :: rest) :
    ∃ kept, occursIn ['*', '/'] kept = false ∧
      (startsLine = false → kept.head? = body.head?) ∧
      eraseFrom form 0 startsLine (body ++ '*' :: '/' :: '\n' :: rest) =
        kept ++ '*' :: '/' :: '\n' :: eraseFrom form 0 true rest := by
  induction length : body.length using Nat.strong_induction_on
    generalizing startsLine body with
  | _ size ih =>
  cases body with
  | nil =>
      refine ⟨[], rfl, fun _ => rfl, ?_⟩
      rw [List.nil_append, eraseFrom_end spares]
      rfl
  | cons char body =>
      simp only [occursIn_end_cons, Bool.or_eq_false_iff] at within
      by_cases matched : startsLine = true ∧
          (form (char :: (body ++ '*' :: '/' :: '\n' :: rest))).isSome = true
      · obtain ⟨rfl, found⟩ := matched
        obtain ⟨after, found⟩ := Option.isSome_iff_exists.mp found
        obtain ⟨left, isSuffix, rfl⟩ := inside _ List.mem_cons_self after found
        obtain ⟨starts, last, isLast, lines, erased⟩ :=
          eraseFrom_match_cons found isSuffix
        obtain ⟨kept, free, -, same⟩ := ih last.length
          (by have := isLast.length_le; simp only [List.length_cons] at length; omega)
          starts last (occursIn_end_suffix isLast within.2)
          (fun inner member => inside inner
            (laterLines_subset_lineStarts _ _ (lines member))) rfl
        exact ⟨kept, free, nofun, by rw [List.cons_append, erased, same]⟩
      · have passed :
            eraseFrom form 0 startsLine (char :: (body ++ '*' :: '/' :: '\n' :: rest)) =
              char :: eraseFrom form 0 (char == '\n')
                (body ++ '*' :: '/' :: '\n' :: rest) := by
          apply eraseFrom_pass
          intro starts
          rw [not_and, Option.not_isSome_iff_eq_none] at matched
          exact matched starts
        obtain ⟨kept, free, head, same⟩ := ih body.length
          (by simp only [List.length_cons] at length; omega)
          (char == '\n') body within.2
          (fun inner member => inside inner
            (laterLines_subset_lineStarts _ _ (laterLines_cons char body ▸ member))) rfl
        refine ⟨char :: kept, ?_, fun _ => rfl, by
          rw [List.cons_append, passed, same, List.cons_append]⟩
        rw [occursIn_end_cons, free, Bool.or_false]
        by_cases star : char = '*'
        · rw [head (by rw [star]; rfl)]
          exact within.1
        · simp [star]

theorem Bounded.suffix {rest : List Char} {later lines : List LeadingLine}
    (isLater : later <:+ lines) (bounded : Bounded form rest lines) :
    Bounded form rest later := by
  obtain ⟨before, rfl⟩ := isLater
  induction before with
  | nil => exact bounded
  | cons line before ih => exact ih bounded.2.2

/-- A line that no statement of a form begins stays, except that statements inside
a comment are erased. -/
theorem eraseFrom_kept (spares : SparesCalm form) (line : LeadingLine)
    {rest : List Char} (few : line.content.passes ≤ 2)
    (fails : form (line.indentation ++ (line.content.text ++ '\n' :: rest)) = none)
    (inside : ∀ inner ∈ laterLines line.content.comment,
      ∀ after ∈ form (inner ++ '*' :: '/' :: '\n' :: rest),
        ∃ left, left <:+ inner ∧ after = left ++ '*' :: '/' :: '\n' :: rest) :
    ∃ kept : LeadingLine, kept.content.passes = line.content.passes ∧
      eraseFrom form 0 true
          (line.indentation ++ (line.content.text ++ '\n' :: rest)) =
        kept.indentation ++ (kept.content.text ++
          '\n' :: eraseFrom form 0 true rest) := by
  have noFeed : '\n' ∉ line.indentation := by
    intro member
    have blank := line.inline _ member
    cases blank
  rw [eraseFrom_lineStart fails, eraseFrom_line form noFeed]
  by_cases none : line.content.comment = []
  · exact ⟨line, rfl, by rw [eraseFrom_calm spares (line.calm_later few none rest)]⟩
  · obtain ⟨indentation, inline, content⟩ := line
    cases content with
    | blockComment body within =>
        obtain ⟨kept, free, -, erased⟩ := eraseFrom_comment spares false body within
          inside
        have opened : ∀ others, eraseFrom form 0 false ('/' :: '*' :: others) =
            '/' :: '*' :: eraseFrom form 0 false others := fun _ => rfl
        refine ⟨⟨indentation, inline, .blockComment kept free⟩, rfl, ?_⟩
        rw [Leading.text_blockComment, Leading.text_blockComment, opened, erased]
    | _ => exact absurd rfl none

/-- One erasing pass over leading lines leaves leading lines that take one pass
less. -/
theorem eraseStatements_preface (spares : SparesCalm form) {passes : Nat}
    (two : passes ≤ 2)
    (begins : ∀ (line : LeadingLine) rest, line.content.passes = passes + 1 →
      form (line.indentation ++ (line.content.text ++ '\n' :: rest)) ≠ none)
    {lines : List LeadingLine} {rest : List Char}
    (few : ∀ line ∈ lines, line.content.passes ≤ passes + 1)
    (bounded : Bounded form rest lines) :
    ∃ kept, (∀ line ∈ kept, line.content.passes ≤ passes) ∧
      eraseStatements form (preface lines rest) =
        preface kept (eraseStatements form rest) := by
  induction length : lines.length using Nat.strong_induction_on
    generalizing lines with
  | _ size ih =>
  have later : ∀ later, later <:+ lines → later.length < size →
      ∃ kept, (∀ line ∈ kept, line.content.passes ≤ passes) ∧
        eraseStatements form (preface later rest) =
          preface kept (eraseStatements form rest) :=
    fun later isLater shorter => ih _ shorter
      (fun line member => few line (isLater.subset member)) (bounded.suffix isLater) rfl
  cases lines with
  | nil => exact ⟨[], by simp, rfl⟩
  | cons line lines =>
      obtain ⟨ends, inside, -⟩ := bounded
      have whole : line.text ++ preface lines rest =
          line.indentation ++ (line.content.text ++ '\n' :: preface lines rest) := by
        simp [LeadingLine.text]
      rw [whole] at ends
      rw [eraseStatements, preface_cons]
      cases found : form (line.indentation ++
          (line.content.text ++ '\n' :: preface lines rest)) with
      | none =>
          have fewer : line.content.passes ≤ passes := by
            have bound := few line List.mem_cons_self
            have different : line.content.passes ≠ passes + 1 :=
              fun equal => begins line (preface lines rest) equal found
            omega
          obtain ⟨keptLine, same, erased⟩ := eraseFrom_kept spares line
            (Nat.le_trans fewer two) found inside
          obtain ⟨kept, fewKept, others⟩ := later lines (List.suffix_cons _ _)
            (by rw [← length]; exact Nat.lt_succ_self _)
          refine ⟨keptLine :: kept, List.forall_mem_cons.mpr ⟨same ▸ fewer, fewKept⟩, ?_⟩
          rw [erased, preface_cons, ← others, eraseStatements]
      | some after =>
          obtain ⟨behind, isLater, rfl⟩ := ends after found
          obtain ⟨kept, fewKept, others⟩ := later behind
            (isLater.trans (List.suffix_cons _ _))
            (by rw [← length]; exact Nat.lt_succ_of_le isLater.length_le)
          refine ⟨.empty :: kept, List.forall_mem_cons.mpr ⟨Nat.zero_le _, fewKept⟩, ?_⟩
          have isSuffix : '\n' :: preface behind rest <:+ line.indentation ++
              (line.content.text ++ '\n' :: preface lines rest) := by
            rw [← List.append_assoc]
            exact (preface_suffix isLater rest).trans (List.suffix_append _ _)
          rw [eraseFrom_statement spares found isSuffix, preface_cons, ← others]
          rfl

/-- Statements of one line end in their line, where the form does not reach beyond
comments. -/
theorem bounded_of_staysInside (stays : StaysInside form) {rest : List Char}
    {lines : List LeadingLine}
    (ends : ∀ line ∈ lines, ∀ rest, ∀ after ∈ form (line.indentation ++
      (line.content.text ++ '\n' :: rest)), after = '\n' :: rest) :
    Bounded form rest lines := by
  induction lines with
  | nil => trivial
  | cons line lines ih =>
      rw [List.forall_mem_cons] at ends
      refine ⟨fun after found => ?_, fun inner _ after found => ?_, ih ends.2⟩
      · simp only [LeadingLine.text, List.append_assoc, List.cons_append,
          List.nil_append] at found
        exact ⟨lines, List.suffix_refl _, ends.1 _ after found⟩
      · exact stays _ _ _ found

end Erasing

/-- The import statements of leading lines are erased and comments remain. -/
theorem erase_preface {lines : List LeadingLine} {rest : List Char}
    (bounded : Bounded importFrom? rest lines) :
    ∃ kept, (∀ line ∈ kept, line.content.passes = 0) ∧
      eraseStatements requireCall? (eraseStatements importModule?
        (eraseStatements importFrom? (preface lines rest))) =
      preface kept (eraseStatements requireCall? (eraseStatements importModule?
        (eraseStatements importFrom? rest))) := by
  have three : ∀ line ∈ lines, line.content.passes ≤ 2 + 1 := by
    intro line _
    cases line.content <;> simp [Leading.passes]
  obtain ⟨first, two, erasedFirst⟩ := eraseStatements_preface sparesCalm_importFrom?
    (Nat.le_refl 2) (fun line rest same => by simp [importFrom?_line rest line same])
    three bounded
  have boundedFirst : ∀ rest, Bounded importModule? rest first := by
    refine fun rest => bounded_of_staysInside staysInside_importModule? ?_
    intro line member rest after found
    rcases Nat.le_succ_iff.mp (two line member) with few | same
    · rw [line.importModule?_eq_none few] at found
      cases found
    · rw [importModule?_line rest line same] at found
      cases found
      rfl
  obtain ⟨second, one, erasedSecond⟩ := eraseStatements_preface
    sparesCalm_importModule? (by decide)
    (fun line rest same => by simp [importModule?_line rest line same])
    two (boundedFirst _)
  have boundedSecond : ∀ rest, Bounded requireCall? rest second := by
    refine fun rest => bounded_of_staysInside staysInside_requireCall? ?_
    intro line member rest after found
    rcases Nat.le_succ_iff.mp (one line member) with few | same
    · rw [sparesCalm_requireCall? _ (line.calm_comment (Nat.le_zero.mp few) rest)]
        at found
      cases found
    · rw [requireCall?_line rest line same] at found
      cases found
      rfl
  obtain ⟨third, zero, erasedThird⟩ := eraseStatements_preface
    sparesCalm_requireCall? (by decide)
    (fun line rest same => by simp [requireCall?_line rest line same])
    one (boundedSecond _)
  refine ⟨third, fun line member => Nat.le_zero.mp (zero line member), ?_⟩
  rw [erasedFirst, erasedSecond, erasedThird]

/-! ## Comments leave blanks -/

/-- A comment on a line of its own leaves blanks and its line feed. -/
theorem LeadingLine.stripFrom_comment (line : LeadingLine)
    (comment : line.content.passes = 0) (rest : List Char) :
    ∃ blanks, (∀ char ∈ blanks, isBlank char = true) ∧
      Relaxed.stripFrom sourceQuotes (.text .code)
          (line.indentation ++ (line.content.text ++ '\n' :: rest)) =
        blanks ++ '\n' :: Relaxed.stripFrom sourceQuotes (.text .code) rest := by
  obtain ⟨indentation, inline, content⟩ := line
  have inside : ∀ char ∈ indentation, isBlank char = true ∧
      char ∉ sourceQuotes ∧ char ≠ '/' := by
    intro char member
    have blank := inline char member
    rw [isInlineBlank, Bool.or_eq_true, beq_iff_eq, beq_iff_eq] at blank
    rcases blank with rfl | rfl <;> decide
  have feed : Relaxed.stripFrom sourceQuotes (.text .code) ('\n' :: rest) =
      '\n' :: Relaxed.stripFrom sourceQuotes (.text .code) rest :=
    Relaxed.stripFrom_char (by decide) (by decide) rest
  rw [Relaxed.stripFrom_code fun char member => (inside char member).2]
  cases content with
  | blank => exact ⟨indentation, fun char member => (inside char member).1,
      congrArg (indentation ++ ·) feed⟩
  | lineComment body within =>
      have opened : Relaxed.stripFrom sourceQuotes (.text .code)
          ('/' :: '/' :: (body ++ '\n' :: rest)) =
            Relaxed.stripFrom sourceQuotes .lineComment (body ++ '\n' :: rest) := rfl
      refine ⟨indentation, fun char member => (inside char member).1, ?_⟩
      rw [Leading.text_lineComment, opened,
        Relaxed.stripFrom_lineComment sourceQuotes within (.inr rfl)]
  | blockComment body within =>
      have opened : Relaxed.stripFrom sourceQuotes (.text .code)
          ('/' :: '*' :: (body ++ '*' :: '/' :: '\n' :: rest)) =
            Relaxed.stripFrom sourceQuotes .blockComment
              (body ++ '*' :: '/' :: '\n' :: rest) := rfl
      refine ⟨indentation ++ body.filter fun char => char == '\n', ?_, ?_⟩
      · rw [List.forall_mem_append]
        refine ⟨fun char member => (inside char member).1, fun char member => ?_⟩
        rw [List.mem_filter, beq_iff_eq] at member
        rw [member.2]
        decide
      · rw [Leading.text_blockComment, List.append_assoc, opened,
          Relaxed.stripFrom_blockComment sourceQuotes within, feed]
  | _ => cases comment

/-- Of comments on lines of their own only blanks remain. -/
theorem stripComments_preface {lines : List LeadingLine}
    (comments : ∀ line ∈ lines, line.content.passes = 0) (rest : List Char) :
    ∃ blanks, (∀ char ∈ blanks, isBlank char = true) ∧
      Relaxed.stripComments sourceQuotes (preface lines rest) =
        blanks ++ Relaxed.stripComments sourceQuotes rest := by
  induction lines with
  | nil => exact ⟨[], by simp, rfl⟩
  | cons line lines ih =>
      rw [List.forall_mem_cons] at comments
      obtain ⟨others, blankOthers, stripped⟩ := ih comments.2
      obtain ⟨own, blankOwn, strippedOwn⟩ :=
        line.stripFrom_comment comments.1 (preface lines rest)
      have feed : isBlank '\n' = true := by decide
      refine ⟨own ++ '\n' :: others, ?_, ?_⟩
      · simp only [List.forall_mem_append, List.forall_mem_cons]
        exact ⟨blankOwn, feed, blankOthers⟩
      · rw [Relaxed.stripComments] at stripped ⊢
        rw [preface_cons, strippedOwn, stripped, List.append_assoc, List.cons_append]

theorem clean_preface {lines : List LeadingLine} {rest : List Char}
    (bounded : Bounded importFrom? rest lines) :
    ∃ blanks, (∀ char ∈ blanks, isBlank char = true) ∧
      clean (preface lines rest) = blanks ++ clean rest := by
  obtain ⟨kept, comments, erased⟩ := erase_preface bounded
  rw [clean, erased]
  exact stripComments_preface comments _

/-- Comments and imports in front of source text change nothing in what is
read. -/
theorem read_preface (lines : List LeadingLine) (text : List Char)
    (bounded : Bounded importFrom? text lines) :
    read (preface lines text) = read text := by
  obtain ⟨blanks, blank, cleaned⟩ := clean_preface bounded
  rw [read, cleaned, readClean_blanks blank, read]

/-- A declaration without a semicolon. -/
theorem read_declaration_string :
    read "const A = z.string()".toList = .ok (.leaf {} .string) := by
  have cleaned : clean "const A = z.string()".toList =
      "const A = z.string()".toList := by
    decide +kernel
  have noExport : exportedDeclaration? "const A = z.string()".toList = none := by
    decide +kernel
  have found : declaration? "const A = z.string()".toList =
      some "z.string()".toList := by
    decide +kernel
  have chain : splitChain "z.string()".toList = some ⟨some ⟨"string", []⟩, []⟩ := by
    decide +kernel
  have called : readCall "string" [] = .ok (.leaf {} .string) := by
    rw [readCall.eq_def]
    rfl
  have notBlank : ¬ allBlank "const A = z.string()".toList = true := by decide
  rw [read, cleaned, readClean, if_neg notBlank, noExport, found, firstReadable,
    firstReadable, readTopLevel, readExpression_of_split chain called rfl]

/-- What is checked character by character holds of all of them. -/
theorem forall_of_all {property : Char → Prop} [DecidablePred property]
    {text : List Char} (checked : text.all (fun char => decide (property char)) = true) :
    ∀ char ∈ text, property char := by
  intro char member
  exact of_decide_eq_true (List.all_eq_true.mp checked char member)

/-- An import in a comment ends there, and one without a semicolon is erased
together with the import behind it. -/
theorem read_preface_statements :
    ∃ lines, Bounded importFrom? "const A = z.string()".toList lines ∧
      preface lines "const A = z.string()".toList =
        ("/*\nimport a from 'b'\n*/\nimport 'metadata'\n" ++
          " import \x7b z \x7d from \"zod\";\nconst h = require(\"./h\")\n" ++
          "\t// import it\nconst A = z.string()").toList ∧
      read (preface lines "const A = z.string()".toList) =
        .ok (.leaf {} .string) := by
  let space : Gap := ⟨[' '], by decide, forall_of_all (by decide)⟩
  let data : Module := ⟨'\'', "metadata".toList, by decide, forall_of_all (by decide)⟩
  let library : Module := ⟨'"', "zod".toList, by decide, forall_of_all (by decide)⟩
  let helper : Module := ⟨'"', "./h".toList, by decide, forall_of_all (by decide)⟩
  let lines : List LeadingLine :=
    [⟨[], nofun, .blockComment "\nimport a from 'b'\n".toList (by decide +kernel)⟩,
      ⟨[], nofun, .importModule space data false⟩,
      ⟨[' '], forall_of_all (by decide), .importFrom space "\x7b z \x7d ".toList
        (forall_of_all (by decide)) (fun _ last => by cases last; decide) space
        library true⟩,
      ⟨[], nofun, .required "const" (by decide) space "h ".toList (by decide)
        (forall_of_all (by decide)) (fun _ later => by cases later) space helper
        false⟩,
      ⟨['\t'], forall_of_all (by decide), .lineComment " import it".toList
        (forall_of_all (by decide))⟩]
  have bounded : Bounded importFrom? "const A = z.string()".toList lines := by
    decide +kernel
  refine ⟨lines, bounded, by decide +kernel, ?_⟩
  rw [read_preface lines _ bounded]
  exact read_declaration_string

/-- A line of a comment that begins with the word import is erased together with
the import behind the comment, and the comment never ends. -/
theorem read_preface_fails :
    ∃ lines, preface lines "const A = z.string()".toList =
        ("/*\nimport this schema in your app\n*/\n" ++
          "import \x7b z \x7d from 'zod'\nconst A = z.string()").toList ∧
      read "const A = z.string()".toList = .ok (.leaf {} .string) ∧
      read (preface lines "const A = z.string()".toList) =
        .error (.fault (.unrecognized Fault.nothingGiven)) := by
  let space : Gap := ⟨[' '], by decide, forall_of_all (by decide)⟩
  let library : Module := ⟨'\'', "zod".toList, by decide, forall_of_all (by decide)⟩
  let lines : List LeadingLine :=
    [⟨[], nofun, .blockComment "\nimport this schema in your app\n".toList
        (by decide +kernel)⟩,
      ⟨[], nofun, .importFrom space "\x7b z \x7d ".toList
        (forall_of_all (by decide)) (fun _ last => by cases last; decide) space
        library false⟩]
  refine ⟨lines, by decide +kernel, read_declaration_string, ?_⟩
  have cleaned : clean (preface lines "const A = z.string()".toList) =
      ['\n', '\n'] := by
    decide +kernel
  rw [read, cleaned]
  rfl

end TwinSchema.Source
