import TwinSchema.Proofs.Relaxed.Segment
import TwinSchema.Proofs.Text.Spacing

/-!
# Mending worn documents

The second pass spells the words of ordered segments as in JSON and puts the
lost commas back, and changes nothing else. A comma was lost between the last
character of one value and the first one of another, and there alone the pass
finds it missing.
-/

namespace TwinSchema.Relaxed

open Json Text

section Words

variable {change : (word following : List Char) → List Char}
variable {letters rest : List Char}

/-- Letters stay when every word among them does. -/
theorem mapWords_letters (stops : Stops isNamePart rest)
    (kept : ∀ {run tail}, run ⊆ letters → tail ⊆ letters →
      change run (tail ++ rest) = run) :
    mapWords change (letters ++ rest) = letters ++ mapWords change rest := by
  fun_induction mapWords change letters with
  | case1 => rfl
  | case2 char letters part ih =>
      have dropped : letters.dropWhile isNamePart ⊆ char :: letters :=
        List.Subset.trans (List.dropWhile_suffix _).subset (List.subset_cons_self _ _)
      have taken : char :: letters.takeWhile isNamePart ⊆ char :: letters :=
        List.cons_subset_cons _ (List.takeWhile_prefix _).subset
      rw [List.cons_append, mapWords, if_pos part, takeWhile_append_stops stops,
        dropWhile_append_stops stops, kept taken dropped,
        ih fun run tail =>
          kept (List.Subset.trans run dropped) (List.Subset.trans tail dropped),
        List.cons_append, ← List.append_assoc, List.takeWhile_append_dropWhile,
        List.cons_append]
  | case3 char letters other ih =>
      have inside : letters ⊆ char :: letters := List.subset_cons_self _ _
      rw [List.cons_append, mapWords, if_neg other,
        ih fun run tail =>
          kept (List.Subset.trans run inside) (List.Subset.trans tail inside),
        List.cons_append]

/-- A word of name characters is changed as a whole. -/
theorem mapWords_name (nonempty : letters ≠ [])
    (parts : ∀ char ∈ letters, isNamePart char = true)
    (stops : Stops isNamePart rest) :
    mapWords change (letters ++ rest) =
      change letters rest ++ mapWords change rest := by
  obtain ⟨char, letters, rfl⟩ := List.exists_cons_of_ne_nil nonempty
  obtain ⟨first, others⟩ := List.forall_mem_cons.mp parts
  rw [List.cons_append, mapWords, if_pos first, takeWhile_run others stops,
    dropWhile_run others stops]

theorem mapWords_skip {char : Char} (other : isNamePart char = false) :
    mapWords change (char :: rest) = char :: mapWords change rest := by
  rw [mapWords, if_neg (by simp [other])]

end Words

/-- The letters by which foreign literals are told from the words of JSON. -/
def isForeignLetter (char : Char) : Bool :=
  char == 'T' || char == 'F' || char == 'o' || char == 'd'

theorem foreignLiteral?_eq_none {run : List Char}
    (strict : ∀ char ∈ run, isForeignLetter char = false) :
    foreignLiteral? run = none := by
  have apart (foreign : List Char)
      (signal : foreign.any isForeignLetter = true) : run ≠ foreign := by
    rintro rfl
    obtain ⟨char, member, letter⟩ := List.any_eq_true.mp signal
    rw [strict char member] at letter
    cases letter
  rw [foreignLiteral?, if_neg (apart _ rfl), if_neg (apart _ rfl),
    if_neg (not_or.mpr ⟨apart _ rfl, apart _ rfl⟩)]

theorem isForeignLetter_of_mem_word (word : Word) :
    ∀ char ∈ word.text, isForeignLetter char = false := by
  have named {name : String} (strict : name.toList.any isForeignLetter = false) :
      ∀ char ∈ name.toList, isForeignLetter char = false := by
    simpa using strict
  cases word with
  | number numeral =>
      intro char inside
      have number := isNumberChar_of_mem_numeral numeral char inside
      rw [Bool.eq_false_iff]
      intro foreign
      simp only [isForeignLetter, Bool.or_eq_true, beq_iff_eq] at foreign
      rcases foreign with ((rfl | rfl) | rfl) | rfl <;> cases number
  | _ => exact named rfl

theorem respellWord_strict {run : List Char}
    (strict : ∀ char ∈ run, isForeignLetter char = false) (following : List Char) :
    respellWord run following = run := by
  rw [respellWord, foreignLiteral?_eq_none strict]
  split <;> rfl

theorem mapWords_respellWord {meant : Word} {spelled rest : List Char}
    (known : spelled = meant.text ∨ (meant.text, spelled) ∈ foreignSpellings)
    (stops : Stops isNamePart rest) (noColon : colonFollows rest = false) :
    mapWords respellWord (spelled ++ rest) =
      meant.text ++ mapWords respellWord rest := by
  rcases known with rfl | foreign
  · exact mapWords_letters stops fun run _ =>
      respellWord_strict
        (fun char member => isForeignLetter_of_mem_word meant char (run member)) _
  · obtain ⟨found, nonempty, -, parts⟩ := foreign_spelling foreign
    rw [mapWords_name nonempty parts stops, respellWord, noColon, found]
    rfl

theorem mapWords_quoteWord {letters rest : List Char}
    (word : ∀ char ∈ letters, isWordLetter char = true)
    (stops : Stops isNamePart rest) (noColon : colonFollows rest = false) :
    mapWords quoteWord (letters ++ rest) = letters ++ mapWords quoteWord rest := by
  refine mapWords_letters stops fun _ tail => ?_
  rw [quoteWord, colonFollows_letters (fun char member => word char (tail member))
    noColon, Bool.and_false]
  rfl

theorem Segment.text_respelled_of_isLiteral {segment : Segment}
    (literal : segment.isLiteral = true) : segment.respelled.text = segment.text := by
  cases segment with
  | literal body inside => rfl
  | _ => cases literal

theorem Segment.isLiteral_respelled (segment : Segment) :
    segment.respelled.isLiteral = segment.isLiteral := by
  cases segment <;> rfl

theorem isNamePart_of_isSeparator {char : Char} (separates : isSeparator char = true) :
    isNamePart char = false := by
  rw [Bool.eq_false_iff]
  intro part
  have visible := isBlank_of_isNamePart part
  rw [isBlank_of_isSeparator separates] at visible
  cases visible

theorem Mark.isNamePart_char (sign : Mark) : isNamePart sign.char = false := by
  cases sign <;> rfl

section Segments

variable {spot : Spot} {segments : List Segment}

/-- Words stand where they stood when they are respelled. -/
theorem ordered_respelled :
    Ordered spot (segments.map Segment.respelled) ↔ Ordered spot segments := by
  induction segments generalizing spot with
  | nil => rfl
  | cons segment segments ih =>
      rw [List.map_cons, Ordered, Ordered, ih]
      cases segment <;> rfl

/-- A change of words that acts on each word as a whole acts on ordered code
word by word. -/
theorem mapWords_segments {change : (word following : List Char) → List Char}
    {out : Segment → List Char}
    (same : ∀ segment, (∀ meant spelled known, segment ≠ .word meant spelled known) →
      out segment = segment.text)
    (changed : ∀ {meant spelled} known {rest}, Stops isNamePart rest →
      colonFollows rest = false →
      mapWords change (spelled ++ rest) =
        out (.word meant spelled known) ++ mapWords change rest)
    (ordered : Ordered spot segments)
    (noLiteral : ∀ segment ∈ segments, segment.isLiteral = false) :
    mapWords change (segments.flatMap Segment.text) = segments.flatMap out := by
  induction segments generalizing spot with
  | nil => rw [List.flatMap_nil, mapWords, List.flatMap_nil]
  | cons segment segments ih =>
      obtain ⟨fits, later⟩ := ordered
      obtain ⟨first, others⟩ := List.forall_mem_cons.mp noLiteral
      rw [List.flatMap_cons, List.flatMap_cons]
      cases segment with
      | blank char separates =>
          rw [same _ (by simp), Segment.text, List.singleton_append,
            mapWords_skip (isNamePart_of_isSeparator separates), ih later others]
          rfl
      | mark sign =>
          rw [same _ (by simp), Segment.text, List.singleton_append,
            mapWords_skip sign.isNamePart_char, ih later others]
          rfl
      | literal body inside => cases first
      | word meant spelled known =>
          have stops : Stops isNamePart (segments.flatMap Segment.text) :=
            stops_text later (awaitsValue_word meant) isNamePart_of_isSeparator
              Mark.isNamePart_char
          rw [Segment.text, changed known stops
            (colonFollows_text later (noText_word meant)), ih later others]
      | lost =>
          rw [same _ (by simp), Segment.text, List.singleton_append,
            mapWords_skip rfl, ih later others]
          rfl

theorem repairWords_segments (ordered : Ordered spot segments)
    (noLiteral : ∀ segment ∈ segments, segment.isLiteral = false) :
    repairWords (segments.flatMap Segment.text) =
      segments.flatMap fun segment => segment.respelled.text := by
  have respelled : mapWords respellWord (segments.flatMap Segment.text) =
      (segments.map Segment.respelled).flatMap Segment.text := by
    rw [List.flatMap_map]
    refine mapWords_segments (fun segment noWord => ?_)
      (fun known => mapWords_respellWord known) ordered noLiteral
    cases segment with
    | word meant spelled known => exact absurd rfl (noWord _ _ _)
    | _ => rfl
  have quoted : ∀ segment ∈ segments.map Segment.respelled,
      segment.isLiteral = false := by
    intro segment member
    obtain ⟨original, within, rfl⟩ := List.mem_map.mp member
    rw [original.isLiteral_respelled, noLiteral original within]
  rw [repairWords, respelled, mapWords_segments (fun _ _ => rfl)
    (fun known => mapWords_quoteWord (letters_of_known known).2)
    (ordered_respelled.mpr ordered) quoted, List.flatMap_map]

theorem mapCode_repairWords (ordered : Ordered spot segments) :
    mapCode repairWords (segments.flatMap Segment.text) =
      segments.flatMap fun segment => segment.respelled.text := by
  refine mapCode_segments ?_ (fun _ => Segment.text_respelled_of_isLiteral)
    repairWords_segments ordered
  rw [repairWords, mapWords, mapWords]

end Segments

/-! ## Lost commas -/

/-- The comma that is lost at a place. -/
def Spot.owed (spot : Spot) : List Char :=
  if spot.between = .lostComma then [','] else []

/-- The gap at a place agrees with what separates it from the last visible
character. -/
structure Spot.Holds (spot : Spot) (gap : List Char) : Prop where
  nothing : spot.between = .nothing → gap = []
  lost : spot.between = .lostComma →
    gap.head? = some '\n' ∧ spot.last.any endsValue = true

/-- Whether a character may be the next visible one: where a comma is lost a
value begins, and elsewhere none begins right after another one. -/
def Spot.Admits (spot : Spot) (char : Char) : Prop :=
  if spot.between = .lostComma then beginsValue char = true
  else beginsValue char = true → spot.last.any endsValue = false

namespace Spot

variable {spot : Spot}

theorem admits_of_awaitsValue (awaits : spot.awaitsValue = true) {char : Char}
    (begins : spot.between = .lostComma → beginsValue char = true) :
    spot.Admits char := by
  rw [Admits]
  split
  next lost => exact begins lost
  next kept =>
    intro _
    rw [awaitsValue, beq_eq_false_iff_ne.mpr kept, Bool.false_or] at awaits
    cases last : spot.last with
    | none => rfl
    | some char =>
        rw [last, Option.all_some, decide_eq_true_eq] at awaits
        simp only [List.mem_cons, List.not_mem_nil, or_false] at awaits
        rcases awaits with rfl | rfl | rfl | rfl <;> rfl

theorem admits_of_kept (kept : spot.between ≠ .lostComma) {char : Char}
    (noValue : beginsValue char = false) : spot.Admits char := by
  rw [Admits, if_neg kept, noValue]
  exact fun begins => absurd begins Bool.false_ne_true

theorem admits_mark {sign : Mark} (fits : sign.fits spot = true) :
    spot.Admits sign.char := by
  cases sign with
  | openRecord | openList => exact admits_of_awaitsValue fits fun _ => rfl
  | comma => exact admits_of_kept (by simpa [Mark.fits] using fits) rfl
  | closeRecord | closeList | colon =>
      rw [Mark.fits, Bool.and_eq_true, bne_iff_ne] at fits
      exact admits_of_kept fits.1 rfl

/-- Behind a visible character there is no gap yet. -/
theorem holds_nil (last : Option Char) :
    Holds ⟨last, .nothing⟩ ([] : List Char).reverse where
  nothing _ := rfl
  lost same := by cases same

theorem Holds.blank {pending : List Char} (holds : spot.Holds pending.reverse)
    (char : Char) (separates : isSeparator char = true) :
    (spot.after (.blank char separates)).Holds (char :: pending).reverse where
  nothing tight := by
    cases between : spot.between <;>
      simp [Spot.after, Between.spaced, between] at tight
  lost lost := by
    have before : spot.between = .lostComma := by
      cases between : spot.between <;>
        simp [Spot.after, Between.spaced, between] at lost ⊢
    obtain ⟨feed, ends⟩ := holds.lost before
    rw [List.reverse_cons, List.head?_append, feed]
    exact ⟨rfl, ends⟩

theorem owed_blank (char : Char) (separates : isSeparator char = true) :
    (spot.after (.blank char separates)).owed = spot.owed := by
  cases between : spot.between <;>
    simp [owed, Spot.after, Between.spaced, between]

/-- Where a comma is lost it is put back, and other gaps stay. -/
theorem separatedGap_next {gap : List Char} (holds : spot.Holds gap) {next : Cell}
    (admits : spot.Admits next.char) :
    separatedGap spot.last gap (some next) = spot.owed ++ gap := by
  rw [Admits] at admits
  rw [owed]
  split at admits
  next lost =>
    obtain ⟨feed, ends⟩ := holds.lost lost
    obtain ⟨tail, rfl⟩ := List.head?_eq_some_iff.mp feed
    rw [if_pos lost]
    cases same : spot.last with
    | none => rw [same] at ends; cases ends
    | some last =>
        rw [same, Option.any_some] at ends
        rw [separatedGap, if_pos ⟨List.mem_cons_self, ends, admits⟩]
        split <;> rfl
  next kept =>
    rw [if_neg kept, List.nil_append]
    cases same : spot.last with
    | none => rfl
    | some last =>
        rw [same, Option.any_some] at admits
        refine if_neg fun missing => ?_
        rw [admits missing.2.2] at missing
        cases missing.2.1

end Spot

/-- Cells that separate nothing stand together. -/
theorem layFrom_solid (previous : Option Char) (pending : List Char) {cell : Cell}
    {others : List Cell} (solid : ∀ other ∈ cell :: others, other.isGap = false)
    (rest : List Cell) :
    missingCommas.layFrom previous pending (cell :: others ++ rest) =
      separatedGap previous pending.reverse (some cell) ++
        ((cell :: others).map Cell.char ++ missingCommas.layFrom
          ((cell :: others).map Cell.char).getLast? [] rest) := by
  induction others generalizing previous pending cell with
  | nil =>
      rw [List.cons_append, Spacing.layFrom,
        if_neg (by simp [solid cell List.mem_cons_self])]
      rfl
  | cons next others ih =>
      obtain ⟨first, later⟩ := List.forall_mem_cons.mp solid
      rw [List.cons_append, Spacing.layFrom, if_neg (by simp [first]), ih _ _ later]
      simp [missingCommas, separatedGap]

/-- A text that a scan in code marks as cells that separate nothing. -/
structure Solid (text : List Char) (marked : List Cell) : Prop where
  written : marked.map Cell.char = text
  visible : ∀ cell ∈ marked, cell.isGap = false
  scan : ∀ rest,
    cells ['"'] .code (text ++ rest) = marked ++ cells ['"'] .code rest

theorem solid_code {text : List Char}
    (visible : ∀ char ∈ text, isBlank char = false ∧ char ≠ '"') :
    Solid text (codeCells text) where
  written := by simp [codeCells, Function.comp_def]
  visible := by
    intro cell member
    obtain ⟨char, inside, rfl⟩ := List.mem_map.mp member
    simp [Cell.isGap, (visible char inside).1]
  scan := cells_code fun char member => by simpa using (visible char member).2

theorem solid_quoted {body : List Char} (inside : LiteralBody '"' body) :
    Solid ('"' :: body ++ ['"'])
      (('"' :: body ++ ['"']).map fun char => ⟨char, true⟩) where
  written := by simp [Function.comp_def]
  visible := by
    intro cell member
    obtain ⟨char, -, rfl⟩ := List.mem_map.mp member
    rfl
  scan rest := by
    have marked := inside.cells_quoted (List.mem_singleton.mpr rfl) (by decide) rest
    simpa using marked

/-- A word and a mark are code, and a text is quoted. -/
theorem Segment.exists_solid {segment : Segment} (visible : segment.isVisible = true) :
    ∃ marked, Solid segment.respelled.text marked := by
  cases segment with
  | blank char separates => cases visible
  | mark sign =>
      refine ⟨_, solid_code ?_⟩
      simpa [respelled, text] using
        ⟨sign.isBlank_char, by cases sign <;> decide⟩
  | literal body inside => exact ⟨_, solid_quoted inside⟩
  | word meant spelled known =>
      have letters := isWordLetter_of_mem_word meant
      exact ⟨_, solid_code fun char member =>
        ⟨isBlank_eq_false_of_isWordLetter (letters char member),
          ne_of_isWordLetter (letters char member) rfl⟩⟩
  | lost => cases visible

theorem Segment.exists_admitted {spot : Spot} {segment : Segment}
    (visible : segment.isVisible = true) (fits : segment.Fits spot) :
    ∃ char rest, segment.respelled.text = char :: rest ∧ spot.Admits char := by
  cases segment with
  | blank char separates => cases visible
  | mark sign => exact ⟨sign.char, [], rfl, Spot.admits_mark fits⟩
  | literal body inside =>
      exact ⟨'"', body ++ ['"'], rfl, Spot.admits_of_awaitsValue fits fun _ => rfl⟩
  | word meant spelled known =>
      obtain ⟨char, rest, same⟩ :=
        List.exists_cons_of_ne_nil (text_word_ne_nil meant)
      obtain ⟨awaits, begins⟩ := fits
      rw [same, List.head?_cons, Option.any_some] at begins
      exact ⟨char, rest, same, Spot.admits_of_awaitsValue awaits begins⟩
  | lost => cases visible

theorem Spot.after_of_isVisible (spot : Spot) {segment : Segment}
    (visible : segment.isVisible = true) :
    spot.after segment = ⟨segment.respelled.text.getLast?, .nothing⟩ := by
  cases segment with
  | literal body inside =>
      have ends : ('"' :: body ++ ['"']).getLast? = some '"' := by
        rw [List.getLast?_append]
        rfl
      exact congrArg (Spot.mk · .nothing) ends.symm
  | blank | lost => cases visible
  | _ => rfl

/-- What stands together follows its gap, and behind it another one begins. -/
theorem layFrom_text {char : Char} {letters : List Char} {marked : List Cell}
    (solid : Solid (char :: letters) marked) :
    ∃ cell : Cell, cell.char = char ∧ ∀ previous pending rest,
      missingCommas.layFrom previous pending
          (cells ['"'] .code (char :: (letters ++ rest))) =
        separatedGap previous pending.reverse (some cell) ++
          char :: (letters ++ missingCommas.layFrom (char :: letters).getLast? []
            (cells ['"'] .code rest)) := by
  have written := solid.written
  obtain ⟨cell, others, same, leads, -⟩ := List.map_eq_cons_iff.mp written
  refine ⟨cell, leads, fun previous pending rest => ?_⟩
  have visible := solid.visible
  rw [same] at visible written
  rw [← List.cons_append, solid.scan, same, layFrom_solid previous pending visible,
    written]
  rfl

theorem layFrom_blank {char : Char} (blank : isBlank char = true)
    (previous : Option Char) (pending rest : List Char) :
    missingCommas.layFrom previous pending (cells ['"'] .code ([char] ++ rest)) =
      missingCommas.layFrom previous (char :: pending) (cells ['"'] .code rest) := by
  have gap : ∀ next ∈ [char], isBlank next = true := by simpa using blank
  have code : ∀ quote ∈ ['"'], isBlank quote = false :=
    List.forall_mem_singleton.mpr rfl
  rw [cells_gap code gap, missingCommas.layFrom_gap gap]
  rfl

/-- Before a visible segment the gap is settled, and behind it another one
begins. -/
theorem layFrom_visible {spot : Spot} {pending : List Char}
    (holds : spot.Holds pending.reverse) {segment : Segment}
    (visible : segment.isVisible = true) (fits : segment.Fits spot)
    (rest : List Char) :
    missingCommas.layFrom spot.last pending
        (cells ['"'] .code (segment.respelled.text ++ rest)) =
      spot.owed ++ (pending.reverse ++ (segment.respelled.text ++
        missingCommas.layFrom (spot.after segment).last []
          (cells ['"'] .code rest))) := by
  obtain ⟨marked, solid⟩ := segment.exists_solid visible
  obtain ⟨char, others, same, admits⟩ := segment.exists_admitted visible fits
  rw [spot.after_of_isVisible visible, solid.scan]
  have written := solid.written
  rw [same] at written ⊢
  obtain ⟨cell, cells, rfl, first, -⟩ := List.map_eq_cons_iff.mp written
  rw [layFrom_solid _ _ solid.visible,
    Spot.separatedGap_next holds (by rwa [first]), written, List.append_assoc]

/-- Where a comma is missing from ordered segments it is put back. -/
theorem layFrom_segments {spot : Spot} {pending : List Char}
    {segments : List Segment} (ordered : Ordered spot segments)
    (closed : (spot.afterAll segments).between ≠ .lostComma)
    (holds : spot.Holds pending.reverse) :
    missingCommas.layFrom spot.last pending (cells ['"'] .code
        (segments.flatMap fun segment => segment.respelled.text)) =
      spot.owed ++ (pending.reverse ++ segments.flatMap Segment.strict) := by
  induction segments generalizing spot pending with
  | nil =>
      have kept : spot.owed = [] := if_neg closed
      cases last : spot.last <;>
        simp [cells, Spacing.layFrom, missingCommas, separatedGap, kept]
  | cons segment segments ih =>
      obtain ⟨fits, later⟩ := ordered
      rw [List.flatMap_cons, List.flatMap_cons]
      cases visible : segment.isVisible with
      | true =>
          have settled : (spot.after segment).Holds ([] : List Char).reverse := by
            rw [spot.after_of_isVisible visible]
            exact Spot.holds_nil _
          have kept : (spot.after segment).owed = [] := by
            rw [spot.after_of_isVisible visible]
            rfl
          rw [layFrom_visible holds visible fits, ih later closed settled, kept,
            segment.strict_of_isVisible visible]
          rfl
      | false =>
          cases segment with
          | blank char separates =>
              have laid := ih later closed (holds.blank char separates)
              rw [Spot.owed_blank, List.reverse_cons, List.append_assoc] at laid
              exact (layFrom_blank (isBlank_of_isSeparator separates) _ _ _).trans laid
          | lost =>
              obtain ⟨tight, ends⟩ := fits
              have empty := holds.nothing tight
              have lost : (spot.after .lost).Holds ('\n' :: pending).reverse := by
                rw [List.reverse_cons, empty]
                refine ⟨fun same => ?_, fun _ => ⟨rfl, ends⟩⟩
                cases same
              have laid := ih later closed lost
              rw [List.reverse_cons, List.append_assoc, empty] at laid
              have kept : spot.owed = [] := by rw [Spot.owed, tight]; rfl
              rw [empty, kept]
              exact (layFrom_blank rfl _ _ _).trans laid
          | _ => cases visible

/-! ## Worn copies -/

/-- Ordered segments that spell a worn text and are restored to the original one.
At the very end no comma is lost. -/
structure Restores (spot : Spot) (worn original : List Char)
    (segments : List Segment) : Prop where
  ordered : Ordered spot segments
  closed : (spot.afterAll segments).between ≠ .lostComma
  text_eq : segments.flatMap Segment.text = worn
  strict_eq : segments.flatMap Segment.strict = original

section Copies

variable {worn original : List Char} {segments : List Segment}
variable (restores : Restores .start worn original segments)

include restores

theorem stripComments_of_restores : stripComments documentQuotes worn = worn := by
  rw [← restores.text_eq, stripComments_segments]

theorem normalize_of_restores : normalize worn = worn := by
  rw [← restores.text_eq, normalize_segments restores.ordered]

/-- The second pass restores the original, before it looks for a list of fields
without braces. -/
theorem insertMissingCommas_of_restores :
    insertMissingCommas (mapCode repairWords (normalize worn)) = original := by
  have laid := layFrom_segments restores.ordered restores.closed (Spot.holds_nil none)
  rw [normalize_of_restores restores, ← restores.text_eq,
    mapCode_repairWords restores.ordered, ← restores.strict_eq]
  exact laid

end Copies

end TwinSchema.Relaxed
