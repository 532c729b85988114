import TwinSchema.Proofs.Json.Stopping
import TwinSchema.Proofs.Relaxed.Mending
import TwinSchema.Proofs.Relaxed.Reading

/-!
# Accepted documents

What the reader of strict JSON accepts falls into ordered segments in which
nothing is lost. So neither pass of repairs changes it, whatever blanks and line
breaks stand between its tokens and whatever its texts hold.
-/

namespace TwinSchema.Relaxed

open Json Text

section Numbers

variable {text rest : List Char}

/-- What is read before the point is the beginning of the text. -/
theorem wholePart?_eq_some {digits : List Char}
    (found : wholePart? text = some (digits, rest)) :
    text = digits ++ rest ∧ (digits.head? = some '0' → digits = ['0']) := by
  cases text with
  | nil => cases found
  | cons char text =>
      rw [wholePart?] at found
      split at found
      next zero =>
        cases found
        exact ⟨by rw [zero]; rfl, fun _ => rfl⟩
      next notZero =>
        split at found
        next =>
          cases found
          refine ⟨by simp, fun zero => absurd ?_ notZero⟩
          simpa using zero
        next => cases found

theorem fractionPart_sound (text : List Char) :
    (∀ char ∈ (fractionPart text).1, isDigit char = true) ∧
      text = (if (fractionPart text).1.isEmpty then []
        else '.' :: (fractionPart text).1) ++ (fractionPart text).2 := by
  fun_cases fractionPart text with
  | case1 => simp
  | case2 rest digits nonempty =>
      refine ⟨List.all_eq_true.mp List.all_takeWhile, ?_⟩
      rw [if_neg nonempty]
      simp [digits]
  | case3 => simp

/-- A sign is a character or nothing. -/
theorem splitSign_sound (text : List Char) :
    ∃ sign : Option Char, text = sign.toList ++ (splitSign text).2 ∧
      (∀ char ∈ sign, char = '+' ∨ char = '-') ∧
      ((splitSign text).1 = true ↔ sign = some '-') := by
  fun_cases splitSign text with
  | case1 rest => exact ⟨some '-', rfl, by simp, by simp⟩
  | case2 rest => exact ⟨some '+', rfl, by simp, by simp⟩
  | case3 => exact ⟨none, rfl, by simp, by simp⟩

/-- An exponent is spelled, or nothing is taken. -/
theorem exponentPart_sound (text : List Char) :
    ∃ power : Option Power, (exponentPart text).1 = power.map Power.value ∧
      text = power.toList.flatMap Power.text ++ (exponentPart text).2 := by
  fun_cases exponentPart text with
  | case1 => exact ⟨none, rfl, rfl⟩
  | case2 => exact ⟨none, rfl, rfl⟩
  | case3 mark rest marked negative unsigned sign digits nonempty size =>
      obtain ⟨written, spelled, signed, minus⟩ := splitSign_sound rest
      rw [sign] at spelled minus
      refine ⟨some ⟨mark, written, digits, marked, signed, by simpa using nonempty,
        List.all_eq_true.mp List.all_takeWhile⟩, ?_, ?_⟩
      · simp only [Option.map_some, Power.value, minus]
        rfl
      · simp only [Option.toList_some, List.flatMap_singleton, Power.text, digits]
        rw [spelled]
        simp
  | case4 => exact ⟨none, rfl, rfl⟩

/-- What is read as a number is spelled as one. -/
theorem exists_numeral {negative : Bool} {value : Scalar}
    (found : numberToken? negative text = some (.scalar value, rest)) :
    ∃ numeral : Numeral, numeral.negative = negative ∧
      text = numeral.unsigned ++ rest ∧ numeral.value = value := by
  rw [numberToken?] at found
  split at found
  next => cases found
  next whole afterWhole taken =>
    obtain ⟨nonempty, decimal⟩ := wholePart?_digits taken
    obtain ⟨spelledWhole, canonical⟩ := wholePart?_eq_some taken
    obtain ⟨fractionDecimal, spelledFraction⟩ := fractionPart_sound afterWhole
    obtain ⟨power, meant, spelledPower⟩ :=
      exponentPart_sound (fractionPart afterWhole).2
    simp only [meant, Option.isNone_map] at found
    have limited : (fractionPart afterWhole).1 = [] → power = none →
        whole.length ≤ integerDigitLimit := by
      intro noFraction noPower
      simp only [noFraction, noPower, List.isEmpty_nil, Option.isNone_none,
        Bool.and_self, if_true] at found
      split at found
      next => cases found
      next few => exact Nat.le_of_not_lt few
    have read : (exponentPart (fractionPart afterWhole).2).2 = rest ∧
        Numeral.value ⟨negative, whole, (fractionPart afterWhole).1, power, nonempty,
          canonical, decimal, fractionDecimal, limited⟩ = value := by
      split at found
      next integer =>
        split at found
        next => cases found
        next =>
          simp only [Option.some.injEq, Prod.mk.injEq, Token.scalar.injEq] at found
          exact ⟨found.2, by rw [← found.1, Numeral.value, if_pos integer]⟩
      next float =>
        simp only [Option.some.injEq, Prod.mk.injEq, Token.scalar.injEq] at found
        exact ⟨found.2, by rw [← found.1, Numeral.value, if_neg float]⟩
    refine ⟨_, rfl, ?_, read.2⟩
    rw [read.1] at spelledPower
    rw [Numeral.unsigned, Numeral.fractionText, Numeral.powerText, spelledWhole]
    simp only [List.append_assoc]
    congr 1
    refine spelledFraction.trans ?_
    congr 1
    refine spelledPower.trans ?_
    cases power <;> simp

end Numbers

/-- Whether a token is one of JSON that can be read. -/
def isReadable : Token → Bool
  | .longInteger _ | .brokenText _ | .unknown => false
  | _ => true

/-- The token that a segment gives when nothing is lost from it. -/
inductive Segment.Gives : Segment → Token → Prop where
  | word (word : Word) :
      Gives (.word word word.text (.inl rfl)) (.scalar word.value)
  | literal (body : List Char) (inside : LiteralBody '"' body) (meant : String) :
      Gives (.literal body inside) (.text meant)
  | mark (sign : Mark) {token : Token} (same : token = sign.token) :
      Gives (.mark sign) token

/-- What is read as a token is spelled by a segment. -/
def Spelled (text : List Char) (token : Token) (rest : List Char) : Prop :=
  ∃ segment : Segment, segment.Gives token ∧ text = segment.text ++ rest

theorem spelled_mark (sign : Mark) (rest : List Char) :
    Spelled (sign.char :: rest) sign.token rest := by
  exact ⟨.mark sign, .mark sign rfl, rfl⟩

theorem spelled_word (word : Word) (rest : List Char) :
    Spelled (word.text ++ rest) (.scalar word.value) rest :=
  ⟨.word word word.text (.inl rfl), .word word, rfl⟩

theorem spelled_nameToken (word : Word) {first : Char} {name : String}
    (spelled : word.text = first :: name.toList) {rest : List Char}
    (read : isReadable (nameToken name word.value rest).1 = true) :
    Spelled (first :: rest) (nameToken name word.value rest).1
      (nameToken name word.value rest).2 := by
  rw [nameToken] at read ⊢
  split at read
  next after dropped =>
    have whole := spelled_word word after
    rw [spelled, List.cons_append, ← dropWord?_eq_some dropped] at whole
    exact whole
  next => cases read

theorem spelled_numberToken? (negative : Bool) {text : List Char}
    (read : isReadable ((numberToken? negative text).getD (.unknown, [])).1 = true) :
    Spelled (minusSign negative ++ text)
      ((numberToken? negative text).getD (.unknown, [])).1
      ((numberToken? negative text).getD (.unknown, [])).2 := by
  cases found : numberToken? negative text with
  | none => rw [found] at read; cases read
  | some pair =>
      obtain ⟨token, rest⟩ := pair
      rw [found, Option.getD_some] at read
      rcases (numberToken?_eq_some found).2 with ⟨value, rfl⟩ | ⟨digits, rfl⟩
      · obtain ⟨numeral, rfl, rfl, rfl⟩ := exists_numeral found
        have whole := spelled_word (.number numeral) rest
        cases sign : numeral.negative <;>
          simpa [Word.text_number, Word.value_number, Numeral.text, minusSign, sign]
            using whole
      · cases read

theorem spelled_nextToken {char : Char} {rest : List Char}
    (read : isReadable (nextToken char rest).1 = true) :
    Spelled (char :: rest) (nextToken char rest).1 (nextToken char rest).2 := by
  revert read
  unfold nextToken
  split
  next => exact fun _ => spelled_mark .openRecord rest
  next => exact fun _ => spelled_mark .closeRecord rest
  next => exact fun _ => spelled_mark .openList rest
  next => exact fun _ => spelled_mark .closeList rest
  next => exact fun _ => spelled_mark .comma rest
  next => exact fun _ => spelled_mark .colon rest
  next =>
    split
    next units after found =>
      intro _
      obtain ⟨body, rfl, inside⟩ := exists_body_of_readUnits found
      exact ⟨.literal body inside, .literal body inside _, by simp [Segment.text]⟩
    next => exact fun read => by cases read
  next => exact spelled_nameToken .null rfl
  next => exact spelled_nameToken .true rfl
  next => exact spelled_nameToken .false rfl
  next => exact spelled_nameToken .nan rfl
  next => exact spelled_nameToken .infinity rfl
  next =>
    split
    next after dropped =>
      intro _
      have whole := spelled_word .negativeInfinity after
      rw [dropWord?_eq_some dropped]
      exact whole
    next => exact spelled_numberToken? true
  next => exact spelled_numberToken? false

/-- What stands before the next token in a state of the reader. -/
def Stands (spot : Spot) : State → Prop
  | .valueDue _ => spot.awaitsValue = true
  | .itemOrEnd _ => spot.last = some '['
  | .nameOrEnd _ => spot.last = some '{'
  | .nameDue _ _ => spot.last = some ','
  | .colonDue _ _ _ => spot.last = some '"'
  | .complete _ _ => spot.last ≠ some ','

theorem gives_mark (sign : Mark) {segment : Segment} (gives : segment.Gives sign.token) :
    segment = .mark sign := by
  cases sign <;>
  · cases gives with
    | mark other same =>
        cases other <;> cases same
        rfl

section Gives

variable {segment : Segment} {token : Token} (gives : segment.Gives token)

include gives

theorem strict_of_gives : segment.strict = segment.text := by
  cases gives <;> rfl

theorem between_of_gives (spot : Spot) :
    (spot.after segment).between = .nothing := by
  cases gives <;> rfl

end Gives

theorem gives_scalar {segment : Segment} {value : Scalar}
    (gives : segment.Gives (.scalar value)) :
    ∃ word : Word, segment = .word word word.text (.inl rfl) := by
  cases gives with
  | word word => exact ⟨word, rfl⟩
  | mark sign same => cases sign <;> cases same

theorem gives_text {segment : Segment} {value : String}
    (gives : segment.Gives (.text value)) :
    ∃ body inside, segment = .literal body inside := by
  cases gives with
  | literal body inside => exact ⟨body, inside, rfl⟩
  | mark sign same => cases sign <;> cases same

theorem awaitsValue_of_last {spot : Spot} {char : Char} (last : spot.last = some char)
    (opens : char ∈ ['{', '[', ',', ':']) : spot.awaitsValue = true := by
  rw [Spot.awaitsValue, last, Option.all_some, decide_eq_true opens, Bool.or_true]

section Steps

variable {spot : Spot} {segment : Segment} {token : Token} {state next : State}
variable (kept : spot.between ≠ .lostComma)

include kept

theorem stands_begins {frames : List Frame} (begins : BeginsValue frames token next)
    (gives : segment.Gives token) (awaits : spot.awaitsValue = true) :
    segment.Fits spot ∧ Stands (spot.after segment) next := by
  cases begins with
  | record =>
      rw [gives_mark .openRecord gives]
      exact ⟨awaits, rfl⟩
  | list =>
      rw [gives_mark .openList gives]
      exact ⟨awaits, rfl⟩
  | scalar value =>
      obtain ⟨word, rfl⟩ := gives_scalar gives
      refine ⟨⟨awaits, fun lost => absurd lost kept⟩, ?_⟩
      obtain ⟨char, last, letter⟩ := exists_last word
      rw [Stands, Spot.after, last, ne_eq, Option.some.injEq]
      exact ne_of_isWordLetter letter rfl
  | text value =>
      obtain ⟨body, inside, rfl⟩ := gives_text gives
      exact ⟨awaits, by simp [Stands, Spot.after]⟩

theorem stands_closing (sign : Mark) (closes : sign = .closeRecord ∨ sign = .closeList)
    (gives : segment.Gives sign.token) (noComma : spot.last ≠ some ',')
    (value : Value) (frames : List Frame) :
    segment.Fits spot ∧ Stands (spot.after segment) (.complete value frames) := by
  rw [gives_mark sign gives]
  rcases closes with rfl | rfl <;>
    simp [Segment.Fits, Mark.fits, kept, noComma, Stands, Spot.after, Mark.char]

theorem stands_comma (gives : segment.Gives .comma)
    (due : Stands ⟨some ',', .nothing⟩ state) :
    segment.Fits spot ∧ Stands (spot.after segment) state := by
  rw [gives_mark .comma gives]
  exact ⟨by simp [Segment.Fits, Mark.fits, kept], due⟩

/-- A step of the reader goes over a segment that fits. -/
theorem stands_steps (steps : Steps state token next) (gives : segment.Gives token)
    (stands : Stands spot state) :
    segment.Fits spot ∧ Stands (spot.after segment) next := by
  have noComma {char : Char} (last : spot.last = some char) (different : char ≠ ',') :
      spot.last ≠ some ',' := by simp [last, different]
  cases steps with
  | value begins => exact stands_begins kept begins gives stands
  | item begins =>
      exact stands_begins kept begins gives (awaitsValue_of_last stands (by decide))
  | noItem =>
      exact stands_closing kept .closeList (.inr rfl) gives
        (noComma stands (by decide)) _ _
  | noField =>
      exact stands_closing kept .closeRecord (.inl rfl) gives
        (noComma stands (by decide)) _ _
  | firstName | name =>
      obtain ⟨body, inside, rfl⟩ := gives_text gives
      exact ⟨awaitsValue_of_last stands (by decide), rfl⟩
  | colon =>
      have text : spot.last = some '"' := stands
      rw [gives_mark .colon gives]
      exact ⟨by simp [Segment.Fits, Mark.fits, kept, text], rfl⟩
  | nextItem | nextField => exact stands_comma kept gives rfl
  | lastItem => exact stands_closing kept .closeList (.inr rfl) gives stands _ _
  | lastField => exact stands_closing kept .closeRecord (.inl rfl) gives stands _ _

omit kept in
/-- Blanks change nothing for the reader. -/
theorem stands_blank (stands : Stands spot state) (char : Char)
    (separates : isSeparator char = true) :
    Stands (spot.after (.blank char separates)) state := by
  cases state with
  | valueDue frames => exact awaitsValue_blank spot char separates stands
  | _ => exact stands

end Steps

theorem isReadable_of_steps {state next : State} {token : Token}
    (steps : Steps state token next) : isReadable token = true := by
  cases steps with
  | value begins | item begins => cases begins <;> rfl
  | _ => rfl

/-! ## Documents -/

theorem Restores.cons {spot : Spot} {segment : Segment} {text : List Char}
    {segments : List Segment} (fits : segment.Fits spot)
    (same : segment.strict = segment.text)
    (rest : Restores (spot.after segment) text text segments) :
    Restores spot (segment.text ++ text) (segment.text ++ text)
      (segment :: segments) where
  ordered := ⟨fits, rest.ordered⟩
  closed := rest.closed
  text_eq := by rw [List.flatMap_cons, rest.text_eq]
  strict_eq := by rw [List.flatMap_cons, rest.strict_eq, same]

/-- What the reader goes over falls into segments from which nothing is lost. -/
theorem exists_restores_of_run {spot : Spot} {state : State} {text : List Char}
    {value : Value} (kept : spot.between ≠ .lostComma) (stands : Stands spot state)
    (ran : state.run (lexemes text) = .ok value) :
    ∃ segments, Restores spot text text segments := by
  fun_induction lexemes text generalizing spot state with
  | case1 => exact ⟨[], trivial, kept, rfl, rfl⟩
  | case2 char rest separates ih =>
      have spaced : (spot.after (.blank char separates)).between ≠ .lostComma := by
        cases between : spot.between <;>
          simp_all [Spot.after, Between.spaced]
      obtain ⟨segments, restores⟩ := ih spaced (stands_blank stands char separates) ran
      have fits : (Segment.blank char separates).Fits spot := trivial
      exact ⟨_, .cons fits rfl restores⟩
  | case3 char rest visible ih =>
      rw [State.run] at ran
      split at ran
      next next stepped =>
        have steps := steps_of_eq_ok stepped
        obtain ⟨segment, gives, spelled⟩ :=
          spelled_nextToken (isReadable_of_steps steps)
        obtain ⟨fits, further⟩ := stands_steps kept steps gives stands
        have tight : (spot.after segment).between ≠ .lostComma := by
          rw [between_of_gives gives]
          decide
        obtain ⟨segments, restores⟩ := ih tight further ran
        rw [spelled]
        exact ⟨_, .cons fits (strict_of_gives gives) restores⟩
      next => cases ran

/-- What strict JSON accepts falls into segments from which nothing is lost. -/
theorem exists_restores_of_read {text : List Char} {value : Value}
    (accepted : Json.read text = .ok value) :
    ∃ segments, Restores .start text text segments := by
  have stands : Stands .start (.valueDue []) := rfl
  exact exists_restores_of_run (by decide) stands (run_of_read accepted)

theorem isSeparator_of_allBlank {spot : Spot} {segments : List Segment}
    (ordered : Ordered spot segments) (start : spot.last = none)
    (blank : allBlank (segments.flatMap Segment.text) = true) :
    ∀ char ∈ segments.flatMap Segment.strict, isSeparator char = true := by
  induction segments generalizing spot with
  | nil => simp
  | cons segment segments ih =>
      obtain ⟨fits, later⟩ := ordered
      rw [List.flatMap_cons, allBlank, List.all_append, Bool.and_eq_true] at blank
      obtain ⟨first, others⟩ := blank
      rw [List.flatMap_cons]
      cases segment with
      | blank char separates =>
          exact List.forall_mem_cons.mpr ⟨separates, ih later start others⟩
      | mark sign =>
          rw [Segment.text, List.all_cons, sign.isBlank_char] at first
          cases first
      | literal body inside => cases first
      | word meant spelled known =>
          obtain ⟨nonempty, letters⟩ := letters_of_known known
          obtain ⟨char, rest, rfl⟩ := List.exists_cons_of_ne_nil nonempty
          rw [Segment.text, List.all_cons,
            isBlank_eq_false_of_isWordLetter (letters char List.mem_cons_self)] at first
          cases first
      | lost =>
          rw [Segment.Fits, start] at fits
          cases fits.2

theorem allBlank_of_restores {worn original : List Char} {segments : List Segment}
    {value : Value} (restores : Restores .start worn original segments)
    (accepted : Json.read original = .ok value) : allBlank worn = false := by
  rw [Bool.eq_false_iff]
  intro blank
  rw [← restores.text_eq] at blank
  have separate := isSeparator_of_allBlank restores.ordered rfl blank
  rw [restores.strict_eq] at separate
  have none := lexemes_blanks separate []
  rw [List.append_nil, lexemes] at none
  have ran := run_of_read accepted
  rw [none] at ran
  cases ran

/-! ## The second pass -/

/-- Whether a value is a list or a record. -/
def isContainer : Json.Value → Bool
  | .scalar _ => false
  | _ => true

theorem eq_of_run_complete {value result : Value} {rest : List Lexeme}
    (ran : (State.complete value []).run rest = .ok result) : result = value := by
  cases rest with
  | nil => cases ran; rfl
  | cons lexeme rest => cases ran

/-- A list or a record begins with its bracket. -/
theorem exists_opening {text : List Char} {value : Value}
    (container : isContainer value = true)
    (ran : (State.valueDue []).run (lexemes text) = .ok value) :
    ∃ blanks char rest, text = blanks ++ char :: rest ∧
      (∀ blank ∈ blanks, isSeparator blank = true) ∧ char ∈ ['{', '['] := by
  fun_induction lexemes text with
  | case1 => cases ran
  | case2 char rest separates ih =>
      obtain ⟨blanks, opening, others, rfl, separate, opens⟩ := ih ran
      exact ⟨char :: blanks, opening, others, rfl,
        List.forall_mem_cons.mpr ⟨separates, separate⟩, opens⟩
  | case3 char rest visible ih =>
      have atomic (scalar : Scalar) : value ≠ .scalar scalar := by
        rintro rfl
        cases container
      have opening (sign : Mark) (token : (nextToken char rest).1 = sign.token)
          (opens : sign.char ∈ ['{', '[']) :
          ∃ blanks opening others, char :: rest = blanks ++ opening :: others ∧
            (∀ blank ∈ blanks, isSeparator blank = true) ∧ opening ∈ ['{', '['] := by
        have readable : isReadable (nextToken char rest).1 = true := by
          rw [token]
          cases sign <;> rfl
        obtain ⟨segment, gives, spelled⟩ := spelled_nextToken readable
        rw [token] at gives
        rw [gives_mark sign gives] at spelled
        exact ⟨[], sign.char, _, spelled, by simp, opens⟩
      rw [State.run] at ran
      split at ran
      next next stepped =>
        obtain ⟨token, same⟩ : ∃ token, (nextToken char rest).1 = token := ⟨_, rfl⟩
        have begins : BeginsValue [] (nextToken char rest).1 next :=
          beginsValue_of_eq_ok stepped
        rw [same] at begins
        cases begins with
        | record => exact opening .openRecord same (by decide)
        | list => exact opening .openList same (by decide)
        | scalar scalar => exact absurd (eq_of_run_complete ran) (atomic scalar)
        | text name => exact absurd (eq_of_run_complete ran) (atomic (.text name))
      next => cases ran

/-- No braces are put around a list or a record. -/
theorem isBareBody_of_read {text : List Char} {value : Value}
    (accepted : Json.read text = .ok value) (container : isContainer value = true) :
    isBareBody text = false := by
  obtain ⟨blanks, char, rest, rfl, separate, opens⟩ :=
    exists_opening container (run_of_read accepted)
  have blank : ∀ char ∈ blanks, isBlank char = true := fun char member =>
    isBlank_of_isSeparator (separate char member)
  rw [isBareBody, trimLeft_blanks blank]
  simp only [List.mem_cons, List.not_mem_nil, or_false] at opens
  rcases opens with rfl | rfl <;> rfl

section Copies

variable {worn original : List Char} {segments : List Segment} {value : Value}

/-- The second pass makes of a worn copy the document that it is a copy of, unless
braces are put around it. -/
theorem normalizeBoldly_of_restores (restores : Restores .start worn original segments)
    (accepted : Json.read original = .ok value) (braced : isBareBody original = false) :
    normalizeBoldly worn = original := by
  obtain ⟨strict, whole⟩ := exists_restores_of_read accepted
  rw [normalizeBoldly, insertMissingCommas_of_restores restores, wrapBareBody, braced,
    ← whole.text_eq]
  exact mapCode_segments rfl (fun _ _ => rfl) dropDanglingCommas_segments whole.ordered

end Copies

/-- Neither pass of repairs changes a document that strict JSON accepts; the
second one might put braces around a single text. -/
theorem untouched_of_read {text : List Char} {value : Value}
    (accepted : Json.read text = .ok value) :
    stripComments documentQuotes text = text ∧ normalize text = text ∧
      decode text = .ok value ∧
      (isContainer value = true → normalizeBoldly text = text) := by
  obtain ⟨segments, restores⟩ := exists_restores_of_read accepted
  have stripped := stripComments_of_restores restores
  have normal := normalize_of_restores restores
  refine ⟨stripped, normal, ?_, fun container =>
    normalizeBoldly_of_restores restores accepted
      (isBareBody_of_read accepted container)⟩
  rw [decode, allBlank_of_restores restores accepted, if_neg Bool.false_ne_true,
    stripped, decodeClean, normal, accepted]

/-- A name with an escaped slash looks like code, and blanks of several kinds stand
between the tokens. -/
theorem untouched_of_read_lookalike :
    Json.read "\x7b\r\n\t\"\\/* :,]\" : [true,\n null , -Infinity]\x7d".toList =
        .ok (.record [("/* :,]",
          .list [.bool true, .null, .scalar (.float (.infinite true))])]) ∧
      normalizeBoldly "\x7b\r\n\t\"\\/* :,]\" : [true,\n null , -Infinity]\x7d".toList =
        "\x7b\r\n\t\"\\/* :,]\" : [true,\n null , -Infinity]\x7d".toList := by
  have allowed : ∀ letter ∈ [Letter.short '/', .plain '*', .plain ' ', .plain ':',
      .plain ',', .plain ']'], letter.Allowed '"' := by
    simp [Letter.Allowed, shortEscape?]
  have accepted :
      Json.read "\x7b\r\n\t\"\\/* :,]\" : [true,\n null , -Infinity]\x7d".toList =
        .ok (.record [("/* :,]",
          .list [.bool true, .null, .scalar (.float (.infinite true))])]) :=
    read_strict [] [] (.record
      (.cons [.blank '\r' rfl, .blank '\n' rfl, .blank '\t' rfl]
        (.quoted (.ofLetters _ allowed)) [.blank ' ' rfl] [.blank ' ' rfl]
        (.list (.cons [] (.word .true) []
          (.cons [.blank '\n' rfl, .blank ' ' rfl] (.word .null) [.blank ' ' rfl]
            (.cons [.blank ' ' rfl] (.word .negativeInfinity) [] .nil))) false [])
        [] .nil) false [])
  exact ⟨accepted, (untouched_of_read accepted).2.2.2 rfl⟩

end TwinSchema.Relaxed
