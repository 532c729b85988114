import TwinSchema.Proofs.Source.Sound

/-!
# Laying out written text

Laying out the text of a sound fragment on one line gives the text of the same
fragment with one entry to a line: inside texts and between round brackets
nothing changes, and every pair of brackets around entries opens a level.
-/

namespace TwinSchema.Source

open Text

/-- Text laid out at a level, with nothing left over from the text before. -/
def layAt (step : Int) (level : Nat) (text : List Char) : List Char :=
  (layout step).layFrom { depth := level } [] (cells sourceQuotes .code text)

variable {step : Int} {level : Nat}

/-- A visible character that closes nothing ends the gap before it, and the text
is laid out from there. -/
theorem layFrom_lead (step : Int) {char : Char} (visible : isBlank char = false)
    (noCloser : isCloser char = false) (state : Indentation)
    (pending rest : List Char) :
    (layout step).layFrom state pending (cells sourceQuotes .code (char :: rest)) =
      (if state.opened || state.separated then lineBreak step state.depth
        else pending.reverse) ++ layAt step state.depth (char :: rest) := by
  have different : char ≠ '}' ∧ char ≠ ']' := by
    constructor <;> rintro rfl <;> cases noCloser
  simp [layAt, cells, Spacing.layFrom, Cell.isGap, visible, layout,
    Indentation.gap, Indentation.advance, closesLevel, different]

theorem layAt_char {char : Char} (visible : isBlank char = false)
    (noQuote : char ∉ sourceQuotes)
    (plain : char ∉ ['{', '[', '}', ']', ',']) (rest : List Char) :
    layAt step level (char :: rest) = char :: layAt step level rest := by
  simp only [List.mem_cons, List.not_mem_nil, or_false, not_or] at plain
  have noComma : (char == ',') = false := by simpa using plain.2.2.2.2
  simp [layAt, cells, Spacing.layFrom, Cell.isGap, visible, layout,
    Indentation.gap, Indentation.advance, closesLevel, opensLevel, plain,
    noComma, Cursor.advance, noQuote]

theorem layAt_code {code : List Char}
    (plain : ∀ char ∈ code, isCode char = true) (rest : List Char) :
    layAt step level (code ++ rest) = code ++ layAt step level rest := by
  induction code with
  | nil => rfl
  | cons char code ih =>
      obtain ⟨first, others⟩ := List.forall_mem_cons.mp plain
      obtain ⟨visible, noOpener, noCloser, noQuote, noSign⟩ := isCode_iff.mp first
      have different : char ∉ ['{', '[', '}', ']', ','] := by
        intro member
        simp only [List.mem_cons, List.not_mem_nil, or_false] at member
        rcases member with rfl | rfl | rfl | rfl | rfl
        · cases noOpener
        · cases noOpener
        · cases noCloser
        · cases noCloser
        · simp at noSign
      rw [List.cons_append, layAt_char visible noQuote different, ih others,
        List.cons_append]

theorem layAt_literal {body : List Char} (inside : LiteralBody '"' body)
    (rest : List Char) :
    layAt step level ('"' :: (body ++ '"' :: rest)) =
      '"' :: (body ++ '"' :: layAt step level rest) := by
  have passed : ∀ (text : List Char) (more : List Cell),
      (layout step).layFrom { depth := level } []
          (text.map (fun char => ⟨char, true⟩) ++ more) =
        text ++ (layout step).layFrom { depth := level } [] more := by
    intro text more
    induction text with
    | nil => rfl
    | cons char text ih =>
        simp only [List.map_cons, List.cons_append, Spacing.layFrom, Cell.isGap]
        rw [← ih]
        simp [layout, Indentation.gap, Indentation.advance, closesLevel,
          opensLevel]
  rw [layAt, inside.cells_quoted (by decide) (by decide), passed]
  simp [layAt]

theorem layAt_opening (pair : Pair) (text : List Char) :
    layAt step level (pair.opening :: text) =
      pair.opening :: (layout step).layFrom { depth := level + 1, opened := true }
        [] (cells sourceQuotes .code text) := by
  cases pair <;> rfl

/-- Brackets without entries touch. -/
theorem layAt_touching (pair : Pair) (rest : List Char) :
    layAt step level (pair.opening :: pair.closing :: rest) =
      pair.opening :: pair.closing :: layAt step level rest := by
  cases pair <;> rfl

/-- After the last entry a line ends. -/
theorem layAt_closing (pair : Pair) (rest : List Char) :
    layAt step (level + 1) (pair.closing :: rest) =
      lineBreak step level ++ pair.closing :: layAt step level rest := by
  cases pair <;> rfl

/-- After a comma inside brackets a line ends. -/
theorem layAt_comma {char : Char} (visible : isBlank char = false)
    (noCloser : isCloser char = false) (rest : List Char) :
    layAt step (level + 1) (',' :: ' ' :: char :: rest) =
      ',' :: lineBreak step (level + 1) ++
        layAt step (level + 1) (char :: rest) := by
  have comma : layAt step (level + 1) (',' :: ' ' :: char :: rest) =
      ',' :: (layout step).layFrom { depth := level + 1, separated := true } [' ']
        (cells sourceQuotes .code (char :: rest)) := by
    simp [layAt, cells, Spacing.layFrom, Cell.isGap, layout, Indentation.gap,
      Indentation.advance, closesLevel, opensLevel, Cursor.advance, sourceQuotes,
      isBlank]
  rw [comma, layFrom_lead step visible noCloser]
  simp

theorem layAt_blank {char : Char} (visible : isBlank char = false)
    (noCloser : isCloser char = false) (rest : List Char) :
    layAt step level (' ' :: char :: rest) =
      ' ' :: layAt step level (char :: rest) := by
  have blank : layAt step level (' ' :: char :: rest) =
      (layout step).layFrom { depth := level } [' ']
        (cells sourceQuotes .code (char :: rest)) := rfl
  rw [blank, layFrom_lead step visible noCloser]
  rfl

theorem layAt_entries {entries : List Fragment}
    (leads : ∀ entry ∈ entries, entry.Leads)
    (laid : ∀ entry ∈ entries, ∀ rest,
      layAt step (level + 1) (entry.text .flat (level + 1) ++ rest) =
        entry.text (.laid step) (level + 1) ++ layAt step (level + 1) rest)
    (rest : List Char) :
    layAt step (level + 1) (entries.flatMap (fun entry =>
        ',' :: ' ' :: entry.text .flat (level + 1)) ++ rest) =
      entries.flatMap (fun entry => ',' :: lineBreak step (level + 1) ++
        entry.text (.laid step) (level + 1)) ++ layAt step (level + 1) rest := by
  induction entries with
  | nil => rfl
  | cons entry entries ih =>
      obtain ⟨leadsFirst, leadsOthers⟩ := List.forall_mem_cons.mp leads
      obtain ⟨laidFirst, laidOthers⟩ := List.forall_mem_cons.mp laid
      obtain ⟨char, others, same, visible, noCloser, -⟩ :=
        leadsFirst .flat (level + 1)
      have first := laidFirst (entries.flatMap (fun entry =>
        ',' :: ' ' :: entry.text .flat (level + 1)) ++ rest)
      rw [same, ih leadsOthers laidOthers] at first
      rw [List.flatMap_cons, List.flatMap_cons, same, List.append_assoc]
      simp only [List.cons_append]
      rw [layAt_comma visible noCloser, ← List.cons_append, first]
      simp

theorem Fragment.Sound.layAt {fragment : Fragment} (sound : fragment.Sound)
    (step : Int) (level : Nat) (rest : List Char) :
    layAt step level (fragment.text .flat level ++ rest) =
      fragment.text (.laid step) level ++ layAt step level rest := by
  induction sound generalizing level rest with
  | plain isCode => exact layAt_code isCode rest
  | @quoted text free =>
      simpa [Fragment.text, Json.writeText] using
        @layAt_literal step level _ (Relaxed.literalBody_escaped text) rest
  | join _ _ left right =>
      rw [Fragment.text, List.append_assoc, left, right, Fragment.text,
        List.append_assoc]
  | @labelled label content _ _ leads left right =>
      obtain ⟨char, others, same, visible, noCloser, -⟩ := leads .flat level
      have content := right level rest
      rw [same, List.cons_append] at content
      rw [Fragment.text, List.append_assoc, left, List.cons_append,
        List.cons_append, layAt_char rfl (by decide) (by decide), same,
        List.cons_append, layAt_blank visible noCloser, content, Fragment.text]
      simp
  | called _ within =>
      rw [Fragment.text, List.append_assoc, List.cons_append,
        layAt_char rfl (by decide) (by decide), within, List.singleton_append,
        layAt_char rfl (by decide) (by decide), Fragment.text]
      simp
  | @bracketed pair entries leads _ within =>
      rw [Fragment.text, Fragment.text, entryTexts_eq_map, entryTexts_eq_map]
      cases entries with
      | nil => exact layAt_touching pair rest
      | cons entry entries =>
          obtain ⟨leadsFirst, leadsOthers⟩ := List.forall_mem_cons.mp leads
          obtain ⟨laidFirst, laidOthers⟩ := List.forall_mem_cons.mp within
          obtain ⟨char, others, same, visible, noCloser, -⟩ :=
            leadsFirst .flat (level + 1)
          have later := layAt_entries leadsOthers
            (fun entry member rest => laidOthers entry member (level + 1) rest)
            (pair.closing :: rest)
          have first := laidFirst (level + 1) (entries.flatMap (fun entry =>
            ',' :: ' ' :: entry.text .flat (level + 1)) ++ pair.closing :: rest)
          have flat : pair.opening ::
              Style.flat.inside level ((entry :: entries).map
                (Fragment.text .flat (level + 1))) ++ [pair.closing] ++ rest =
              pair.opening :: char :: (others ++ (entries.flatMap (fun entry =>
                ',' :: ' ' :: entry.text .flat (level + 1)) ++
                  pair.closing :: rest)) := by
            simp [inside_flat_cons, same, List.flatMap_map]
          rw [later, same, List.cons_append, layAt_closing] at first
          rw [flat, layAt_opening, layFrom_lead step visible noCloser, first]
          simp [inside_laid_cons, List.flatMap_map]

/-- Laying out the text of a sound fragment gives one entry to a line. -/
theorem reindent_text {fragment : Fragment} (sound : fragment.Sound) (step : Int) :
    reindent step (fragment.text .flat 0) = fragment.text (.laid step) 0 := by
  have laid := sound.layAt step 0 []
  rw [List.append_nil] at laid
  have nothing : layAt step 0 [] = [] := rfl
  rw [nothing, List.append_nil] at laid
  exact laid

end TwinSchema.Source
