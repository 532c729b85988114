import TwinSchema.Proofs.Relaxed.PaddedRepair

/-!
# The passes over padded documents

The second pass puts commas where a line break stands between two values. There
nothing is padded, since a padded place is next to an opening sign, a comma or a
closing sign. So both passes make of a padded document the padded repaired one.
-/

namespace TwinSchema.Relaxed

open Json Text

variable {loose : Bool} {char : Char} {body rest tight padded : List Char}
variable {previous : Option Char}

namespace Padded

theorem trimLeft (related : Padded loose tight padded) :
    Padded loose (trimLeft tight) (trimLeft padded) := by
  have dropped : ∀ {char : Char} {text : List Char}, isBlank char = true →
      Text.trimLeft (char :: text) = Text.trimLeft text :=
    fun blank => List.dropWhile_cons_of_pos blank
  have kept : ∀ {char : Char} {text : List Char}, isBlank char = false →
      Text.trimLeft (char :: text) = char :: text :=
    fun visible => List.dropWhile_cons_of_neg (by simp [visible])
  induction related with
  | same loose text => exact .same loose _
  | stop loose first second => exact .stop loose first second
  | @keep loose char tight padded code rest ih =>
      cases blank : isBlank char with
      | true =>
          rw [dropped blank, dropped blank]
          rwa [loosens_blank blank] at ih
      | false =>
          rw [kept blank, kept blank]
          exact .keep code rest
  | pad separates _ _ ih => rwa [dropped (isBlank_of_isSeparator separates)]
  | literal inside rest => exact .literal inside rest

/-- The blanks in front of one padded text may stand in front of another one. -/
theorem regap (related : Padded loose tight padded) {first second : List Char}
    (behind : Padded loose first second)
    (closing : beforeClosing tight = true → beforeClosing first = true) :
    Padded loose (tight.takeWhile isBlank ++ first) (padded.takeWhile isBlank ++ second) := by
  have blanks : ∀ {text first : List Char},
      (beforeClosing text = true → beforeClosing first = true) →
      beforeClosing text = true →
        beforeClosing (text.takeWhile isBlank ++ first) = true := by
    intro text first implies closes
    rw [beforeClosing, firstVisible_blanks (fun _ => List.mem_takeWhile_imp)]
    exact implies closes
  induction related with
  | same loose text =>
      clear closing
      have gap : ∀ gap : List Char, (∀ char ∈ gap, isBlank char = true) →
          Padded loose (gap ++ first) (gap ++ second) := by
        intro gap
        induction gap with
        | nil => exact fun _ => behind
        | cons char gap ih =>
            intro inside
            obtain ⟨blank, others⟩ := List.forall_mem_cons.mp inside
            refine .keep (by rintro rfl; cases blank) ?_
            rw [loosens_blank blank]
            exact ih others
      exact gap _ fun _ => List.mem_takeWhile_imp
  | stop => exact behind
  | @keep loose char tight padded code rest ih =>
      cases blank : isBlank char with
      | true =>
          rw [beforeClosing_blank blank] at closing
          rw [loosens_blank blank] at ih
          rw [List.takeWhile_cons_of_pos blank, List.takeWhile_cons_of_pos blank]
          refine .keep code ?_
          rw [loosens_blank blank]
          exact ih behind closing
      | false =>
          rw [List.takeWhile_cons_of_neg (by simp [blank]),
            List.takeWhile_cons_of_neg (by simp [blank])]
          exact behind
  | pad separates place _ ih =>
      rw [List.takeWhile_cons_of_pos (isBlank_of_isSeparator separates)]
      exact .pad separates (place.imp_right (blanks closing)) (ih behind closing)
  | literal => exact behind

/-- Elsewhere the blanks in front are the same. -/
theorem takeWhile_isBlank_eq (related : Padded loose tight padded)
    (tightly : loose = false) (noClosing : beforeClosing tight = false) :
    tight.takeWhile isBlank = padded.takeWhile isBlank := by
  induction related with
  | same | stop | literal => rfl
  | @keep loose char tight padded code rest ih =>
      cases blank : isBlank char with
      | true =>
          rw [beforeClosing_blank blank] at noClosing
          rw [List.takeWhile_cons_of_pos blank, List.takeWhile_cons_of_pos blank,
            ih (by rwa [loosens_blank blank]) noClosing]
      | false =>
          rw [List.takeWhile_cons_of_neg (by simp [blank]),
            List.takeWhile_cons_of_neg (by simp [blank])]
  | pad separates place =>
      rw [tightly, noClosing] at place
      simp at place

end Padded

/-- Puts commas between the values of a text, the first of which follows a given
character. -/
def separateFrom (previous : Option Char) (text : List Char) : List Char :=
  missingCommas.layFrom previous [] (cells ['"'] .code text)

theorem separateFrom_gap (previous : Option Char) (text : List Char) :
    separateFrom previous text =
      missingCommas.layFrom previous (text.takeWhile isBlank).reverse
        (cells ['"'] .code (Text.trimLeft text)) := by
  have blank : ∀ char ∈ text.takeWhile isBlank, isBlank char = true :=
    fun _ => List.mem_takeWhile_imp
  have code : ∀ quote ∈ ['"'], isBlank quote = false :=
    List.forall_mem_singleton.mpr rfl
  have whole : text.takeWhile isBlank ++ Text.trimLeft text = text :=
    List.takeWhile_append_dropWhile
  rw [separateFrom, ← whole, cells_gap code blank, missingCommas.layFrom_gap blank,
    List.append_nil, whole]

theorem noQuote_commaBeforeBreak {gap : List Char} (noQuote : '"' ∉ gap) :
    '"' ∉ commaBeforeBreak gap := by
  induction gap with
  | nil => exact noQuote
  | cons char gap ih =>
      rw [commaBeforeBreak]
      split
      next => simpa using noQuote
      next =>
        rw [List.mem_cons, not_or] at noQuote
        simpa using ⟨noQuote.1, ih noQuote.2⟩

theorem noQuote_separatedGap {gap : List Char} (noQuote : '"' ∉ gap)
    (previous : Option Char) (next : Option Cell) :
    '"' ∉ separatedGap previous gap next := by
  unfold separatedGap
  split
  next =>
    split
    next =>
      split
      next => simpa using noQuote
      next => exact noQuote_commaBeforeBreak noQuote
    next => exact noQuote
  next => exact noQuote

/-- A gap stays where no value ends before it or none begins behind it. -/
theorem separatedGap_eq {gap : List Char} {cell : Cell}
    (apart : previous.any endsValue = false ∨ beginsValue cell.char = false) :
    separatedGap previous gap (some cell) = gap := by
  cases previous with
  | none => rfl
  | some last =>
      refine if_neg ?_
      rintro ⟨-, ends, begins⟩
      rcases apart with noEnd | noBeginning
      · rw [Option.any_some, ends] at noEnd
        cases noEnd
      · rw [begins] at noBeginning
        cases noBeginning

/-- What stands together follows its gap. -/
theorem layFrom_letters {letters : List Char} {marked : List Cell}
    (solid : Solid (char :: letters) marked) :
    ∃ cell : Cell, cell.char = char ∧ ∀ previous pending rest,
      missingCommas.layFrom previous pending
          (cells ['"'] .code (char :: (letters ++ rest))) =
        separatedGap previous pending.reverse (some cell) ++
          char :: (letters ++ separateFrom (char :: letters).getLast? rest) :=
  layFrom_text solid

theorem layFrom_sign (visible : isBlank char = false) (noQuote : char ≠ '"') :
    ∃ cell : Cell, cell.char = char ∧ ∀ previous pending rest,
      missingCommas.layFrom previous pending (cells ['"'] .code (char :: rest)) =
        separatedGap previous pending.reverse (some cell) ++
          char :: separateFrom (some char) rest :=
  layFrom_letters (solid_code (List.forall_mem_singleton.mpr ⟨visible, noQuote⟩))

/-- A visible character follows its gap, whatever comes behind it. -/
theorem layFrom_visible_char (visible : isBlank char = false) (rest : List Char) :
    ∃ cell : Cell, cell.char = char ∧ ∃ laid, ∀ previous pending,
      missingCommas.layFrom previous pending (cells ['"'] .code (char :: rest)) =
        separatedGap previous pending.reverse (some cell) ++ char :: laid := by
  have shown : ∀ quoted, ¬ Cell.isGap ⟨char, quoted⟩ = true := by
    simp [Cell.isGap, visible]
  have laid : ∀ next quoted previous pending, missingCommas.layFrom previous pending
      (⟨char, quoted⟩ :: cells ['"'] next rest) =
        separatedGap previous pending.reverse (some ⟨char, quoted⟩) ++
          char :: missingCommas.layFrom (some char) [] (cells ['"'] next rest) := by
    intro next quoted previous pending
    rw [Spacing.layFrom, if_neg (shown quoted)]
    rfl
  exact ⟨_, rfl, _, laid (Cursor.code.advance ['"'] char) _⟩

namespace Padded

/-- The gap in front of a visible character is settled with its padding. -/
theorem separatedGap (related : Padded loose tight padded)
    (apart : loose = true → previous.any endsValue = false) {cell : Cell}
    (leads : firstVisible tight = some cell.char) {first second : List Char}
    (behind : Padded loose (cell.char :: first) (cell.char :: second)) :
    Padded loose
      (separatedGap previous (tight.takeWhile isBlank) (some cell) ++ cell.char :: first)
      (separatedGap previous (padded.takeWhile isBlank) (some cell) ++
        cell.char :: second) := by
  have visible : isBlank cell.char = false := by
    simpa using List.find?_some leads
  have closing : beforeClosing tight = closesGap cell.char := by
    rw [beforeClosing, leads, Option.all_some]
  have regapped := related.regap behind
    (by rw [closing, beforeClosing_visible visible]; exact id)
  cases placed : loose with
  | true =>
      rw [separatedGap_eq (.inl (apart placed)), separatedGap_eq (.inl (apart placed)),
        ← placed]
      exact regapped
  | false =>
      cases closes : closesGap cell.char with
      | true =>
          have noValue : beginsValue cell.char = false := by
            rcases closesGap_iff.mp closes with sign | sign <;> rw [sign] <;> rfl
          rw [separatedGap_eq (.inr noValue), separatedGap_eq (.inr noValue), ← placed]
          exact regapped
      | false =>
          rw [← related.takeWhile_isBlank_eq placed (closing.trans closes)]
          apply Padded.prepend
          · apply noQuote_separatedGap
            exact notMem_of_forall (fun _ => List.mem_takeWhile_imp) rfl
          · rwa [placed] at behind

/-- Commas are put between the values of a padded text. -/
theorem separateFrom (related : Padded loose tight padded)
    (apart : loose = true → previous.any endsValue = false) :
    Padded loose (separateFrom previous tight) (separateFrom previous padded) := by
  induction length : padded.length using Nat.strongRecOn
    generalizing loose tight padded previous with
  | _ size ih =>
  have trimmed := related.trimLeft
  have stopsFirst : Stops isBlank (Text.trimLeft tight) := stops_dropWhile isBlank tight
  have stopsSecond : Stops isBlank (Text.trimLeft padded) := stops_dropWhile isBlank padded
  have shorter : (Text.trimLeft padded).length ≤ size := length ▸ length_trimLeft padded
  have leads : firstVisible tight = (Text.trimLeft tight).head? :=
    (head?_trimLeft tight).symm
  rw [separateFrom_gap, separateFrom_gap]
  generalize Text.trimLeft tight = first at *
  generalize Text.trimLeft padded = second at *
  cases trimmed with
  | same =>
      cases first with
      | nil =>
          have gap := related.regap (.same loose []) fun _ => rfl
          simpa [cells, Spacing.layFrom, missingCommas, Relaxed.separatedGap] using gap
      | cons char rest =>
          obtain ⟨cell, rfl, laid, same⟩ := layFrom_visible_char (stopsFirst char rfl) rest
          rw [same, same, List.reverse_reverse, List.reverse_reverse]
          exact related.separatedGap apart leads (.same loose _)
  | stop _ first second =>
      obtain ⟨cell, sign, laid⟩ := layFrom_sign
        (show isBlank '\x60' = false from rfl) (by decide)
      rw [laid, laid, List.reverse_reverse, List.reverse_reverse, ← sign]
      apply related.separatedGap apart (by rw [sign]; exact leads)
      rw [sign]
      exact .stop loose _ _
  | @keep _ char tight padded code rest =>
      obtain ⟨cell, rfl, laid⟩ := layFrom_sign (stopsFirst char rfl) code
      rw [laid, laid, List.reverse_reverse, List.reverse_reverse]
      apply related.separatedGap apart leads
      refine .keep code (ih _ shorter rest (fun loosened => ?_) rfl)
      simp only [loosens, stopsFirst cell.char rfl, Bool.and_false, Bool.or_false,
        opensGap, Bool.or_eq_true, beq_iff_eq] at loosened
      rcases loosened with (sign | sign) | sign <;> rw [sign] <;> rfl
  | @pad _ char _ padded separates =>
      have visible := stopsSecond char rfl
      rw [isBlank_of_isSeparator separates] at visible
      cases visible
  | @literal _ body tight padded inside rest =>
      have solid : Solid ('"' :: (body ++ ['"'])) _ := solid_quoted inside
      obtain ⟨cell, sign, laid⟩ := layFrom_letters solid
      simp only [List.append_assoc, List.singleton_append] at laid
      simp only [List.length_cons, List.length_append] at shorter
      rw [laid, laid, List.reverse_reverse, List.reverse_reverse, ← sign]
      apply related.separatedGap apart (by rw [sign]; exact leads)
      rw [sign]
      exact .literal inside (ih _ (by omega) rest (absurd · Bool.false_ne_true) rfl)

/-- Commas are put between the values of a padded document. -/
theorem insertMissingCommas (related : Padded loose tight padded) :
    Padded loose (insertMissingCommas tight) (insertMissingCommas padded) :=
  related.separateFrom fun _ => rfl

end Padded

theorem dropQuote_cons (noQuote : char ≠ '"') (rest : List Char) :
    dropQuote (char :: rest) = char :: rest := if_neg noQuote

theorem dropQuote_quote (rest : List Char) : dropQuote ('"' :: rest) = rest := rfl

theorem colonFollows_append {body : List Char} (visible : isBlank char = false)
    (first second : List Char) :
    colonFollows (body ++ char :: first) = colonFollows (body ++ char :: second) := by
  rw [colonFollows, colonFollows, firstVisible_append visible]

namespace Padded

/-- Right behind a name, a padded text goes on with a colon where the text does,
also if a quote stands in between. -/
theorem colonFollows_dropQuote (related : Padded false tight padded) :
    colonFollows (dropQuote tight) = colonFollows (dropQuote padded) := by
  cases related with
  | same => rfl
  | stop => rfl
  | keep code rest =>
      rw [dropQuote_cons code, dropQuote_cons code]
      exact (Padded.keep code rest).colonFollows_eq
  | @pad _ char _ padded separates place rest =>
      have blank := isBlank_of_isSeparator separates
      have closing := place.resolve_left nofun
      have whole : dropQuote tight = tight := by
        cases tight with
        | nil => rfl
        | cons first tight => exact dropQuote_cons (by rintro rfl; cases closing) tight
      rw [whole, dropQuote_cons (by rintro rfl; cases blank)]
      exact (Padded.pad separates place rest).colonFollows_eq
  | literal =>
      rw [dropQuote_quote, dropQuote_quote]
      exact colonFollows_append rfl _ _

/-- Padding makes no document a bare list of fields. -/
theorem isBareBody_eq (related : Padded loose tight padded) :
    isBareBody tight = isBareBody padded := by
  have trimmed := related.trimLeft
  have stops : Stops isBlank (Text.trimLeft padded) := stops_dropWhile isBlank padded
  rw [isBareBody, isBareBody]
  generalize Text.trimLeft tight = first at *
  generalize Text.trimLeft padded = second at *
  cases trimmed with
  | same | stop => rfl
  | @keep _ char tight padded code rest =>
      rw [dropQuote_cons code, dropQuote_cons code, name?, name?]
      cases start : isNameStart char with
      | false => rfl
      | true =>
          have solid := isSolid_of_isNamePart (isNamePart_of_isNameStart start)
          have dropped := (rest.run (fun _ => isSolid_of_isNamePart)
            (loosens_solid solid loose)).2
          simpa using dropped.colonFollows_dropQuote
  | pad separates =>
      have visible := stops _ rfl
      rw [isBlank_of_isSeparator separates] at visible
      cases visible
  | @literal _ body tight padded inside rest =>
      rw [dropQuote_quote, dropQuote_quote]
      cases body with
      | nil => rfl
      | cons char body =>
          have noName : ∀ rest, Stops isNamePart ('"' :: rest) :=
            fun _ => stops_cons rfl
          simp only [List.cons_append, name?]
          cases start : isNameStart char with
          | false => rfl
          | true =>
              simp only [if_true, dropWhile_append_stops (noName _)]
              cases left : body.dropWhile isNamePart with
              | nil => exact rest.colonFollows_eq
              | cons sign left =>
                  by_cases quote : sign = '"'
                  · rw [quote]
                    exact colonFollows_append rfl _ _
                  · rw [List.cons_append, List.cons_append, dropQuote_cons quote,
                      dropQuote_cons quote, ← List.cons_append, ← List.cons_append]
                    exact colonFollows_append rfl _ _

theorem wrapBareBody (related : Padded loose tight padded) :
    Padded loose (wrapBareBody tight) (wrapBareBody padded) := by
  rw [Relaxed.wrapBareBody, Relaxed.wrapBareBody, related.isBareBody_eq]
  split
  next => exact .keep (by decide) (related.append_brace.mono fun _ => rfl)
  next => exact related

theorem repairBoldly (related : Padded loose tight padded) :
    Padded loose
      (mapCode Relaxed.dropDanglingCommas
        (Relaxed.wrapBareBody (Relaxed.insertMissingCommas (mapCode Relaxed.repairWords tight))))
      (mapCode Relaxed.dropDanglingCommas
        (Relaxed.wrapBareBody
          (Relaxed.insertMissingCommas (mapCode Relaxed.repairWords padded)))) :=
  related.repairWords.insertMissingCommas.wrapBareBody.dropDanglingCommas .inl

end Padded

end TwinSchema.Relaxed
