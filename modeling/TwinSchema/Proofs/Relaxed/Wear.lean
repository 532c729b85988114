import TwinSchema.Proofs.Relaxed.Mending
import TwinSchema.Proofs.Relaxed.Writing

/-!
# Wear of written documents

A written document that is copied by hand wears out: commas at the ends of its
lines get lost, and named values are spelled as in another notation. Any worn copy
of what is written for a value falls into segments that are restored to it. This is
shown for one part of a document after the other, by what stands before and behind
each part.
-/

namespace TwinSchema.Relaxed

open Json Text

/-- Whether a character of code is kept in every worn copy. -/
def isSteady (char : Char) : Bool :=
  char ∉ ['"', ',', 't', 'f', 'n']

theorem isSteady_of_class {test : Char → Bool}
    (apart : ['"', ',', 't', 'f', 'n'].any test = false) {char : Char}
    (inside : test char = true) : isSteady char = true := by
  rw [isSteady, decide_eq_true_eq]
  intro touched
  rw [List.any_eq_true.mpr ⟨char, touched, inside⟩] at apart
  cases apart

/-- A worn copy of a text from a position in it on. Commas may be lost at the ends
of lines, and named values outside of texts may be spelled as elsewhere. -/
inductive Worn : Cursor → (original worn : List Char) → Prop where
  | nil (cursor : Cursor) : Worn cursor [] []
  | kept {cursor : Cursor} {char : Char} {original worn : List Char}
      (rest : Worn (cursor.advance ['"'] char) original worn) :
      Worn cursor (char :: original) (char :: worn)
  | lost {cursor : Cursor} {original worn : List Char}
      (rest : Worn (cursor.advance ['"'] ',') ('\n' :: original) worn) :
      Worn cursor (',' :: '\n' :: original) worn
  | respelled {strict foreign original worn : List Char}
      (spelling : (strict, foreign) ∈ foreignSpellings)
      (rest : Worn .code original worn) :
      Worn .code (strict ++ original) (foreign ++ worn)

/-- A named value begins with one of three letters. -/
theorem exists_first_letter {strict foreign : List Char}
    (spelling : (strict, foreign) ∈ foreignSpellings) :
    ∃ first letters, strict = first :: letters ∧ first ∈ ['t', 'f', 'n'] := by
  rcases foreignSpellings_cases spelling with
    ⟨rfl, -⟩ | ⟨rfl, -⟩ | ⟨rfl, -⟩ | ⟨rfl, -⟩ <;>
    exact ⟨_, _, rfl, by decide⟩

namespace Worn

variable {cursor : Cursor} {char : Char} {code body rest original worn : List Char}

theorem behind (front : List Char)
    (wears : Worn (cursor.after ['"'] front) original worn) :
    Worn cursor (front ++ original) (front ++ worn) := by
  induction front generalizing cursor with
  | nil => exact wears
  | cons char front ih => exact .kept (ih wears)

theorem refl (cursor : Cursor) (text : List Char) : Worn cursor text text := by
  have whole := (Worn.nil (cursor.after ['"'] text)).behind text
  rwa [List.append_nil] at whole

/-- What becomes of the first character: it is kept, or it is a lost comma, or a
respelled word begins with it. -/
theorem cons_cases (wears : Worn cursor (char :: original) worn) :
    (∃ after, worn = char :: after ∧
      Worn (cursor.advance ['"'] char) original after) ∨
    (char = ',' ∧ original.head? = some '\n' ∧
      Worn (cursor.advance ['"'] char) original worn) ∨
    (cursor = .code ∧ ∃ strict foreign others after,
      (strict, foreign) ∈ foreignSpellings ∧ char :: original = strict ++ others ∧
      worn = foreign ++ after ∧ Worn .code others after) := by
  -- The text of a respelled word is no pattern, so the text is named first.
  obtain ⟨text, whole⟩ : ∃ text, text = char :: original := ⟨_, rfl⟩
  rw [← whole] at wears
  cases wears with
  | nil => cases whole
  | kept rest => cases whole; exact .inl ⟨_, rfl, rest⟩
  | lost rest => cases whole; exact .inr (.inl ⟨rfl, rfl, rest⟩)
  | respelled spelling rest =>
      exact .inr (.inr ⟨rfl, _, _, _, _, spelling, whole.symm, rfl, rest⟩)

/-- Inside a text a character is kept, unless it is a comma before a line
break. -/
theorem inside_cons (inside : cursor ≠ .code)
    (noBreak : char = ',' → original.head? ≠ some '\n')
    (wears : Worn cursor (char :: original) worn) :
    ∃ after, worn = char :: after ∧
      Worn (cursor.advance ['"'] char) original after := by
  rcases wears.cons_cases with kept | ⟨comma, feed, -⟩ | ⟨outside, -⟩
  · exact kept
  · exact absurd feed (noBreak comma)
  · exact absurd outside inside

/-- Code is kept where no comma stands and no named value begins. -/
theorem code_cons (steady : char ∉ [',', 't', 'f', 'n'])
    (wears : Worn .code (char :: original) worn) :
    ∃ after, worn = char :: after ∧
      Worn (Cursor.code.advance ['"'] char) original after := by
  rcases wears.cons_cases with kept | ⟨rfl, -⟩ |
    ⟨-, strict, foreign, others, after, spelling, whole, -⟩
  · exact kept
  · exact absurd (by decide) steady
  · obtain ⟨first, letters, rfl, named⟩ := exists_first_letter spelling
    rw [(List.cons.inj whole).1] at steady
    exact absurd (List.mem_cons_of_mem ',' named) steady

/-- Code without quotes, commas and named values is kept. -/
theorem of_code (steady : ∀ char ∈ code, isSteady char = true)
    (wears : Worn .code (code ++ rest) worn) :
    ∃ after, worn = code ++ after ∧ Worn .code rest after := by
  induction code generalizing worn with
  | nil => exact ⟨worn, rfl, wears⟩
  | cons char code ih =>
      obtain ⟨first, others⟩ := List.forall_mem_cons.mp steady
      obtain ⟨noQuote, untouched⟩ := not_or.mp
        (List.mem_cons.not.mp (of_decide_eq_true first))
      obtain ⟨worn, rfl, later⟩ := wears.code_cons untouched
      have stays : Cursor.code.advance ['"'] char = .code :=
        if_neg (List.mem_singleton.not.mpr noQuote)
      rw [stays] at later
      obtain ⟨after, rfl, behind⟩ := ih others later
      exact ⟨after, rfl, behind⟩

/-- The body of a text is kept, and its closing quote. -/
theorem of_body (inside : LiteralBody '"' body) (noBreak : '\n' ∉ body)
    (wears : Worn (.literal '"') (body ++ '"' :: rest) worn) :
    ∃ after, worn = body ++ '"' :: after ∧ Worn .code rest after := by
  have next {body : List Char} (noBreak : '\n' ∉ body) :
      (body ++ '"' :: rest).head? ≠ some '\n' := by
    cases body with
    | nil => simp
    | cons char body =>
        intro feed
        rw [List.cons_append, List.head?_cons, Option.some.injEq] at feed
        exact noBreak (feed ▸ List.mem_cons_self)
  induction inside generalizing worn with
  | nil => exact wears.inside_cons (by decide) fun comma => absurd comma (by decide)
  | plain notEscape notQuote _ ih =>
      obtain ⟨-, others⟩ := not_or.mp (List.mem_cons.not.mp noBreak)
      obtain ⟨worn, rfl, later⟩ :=
        wears.inside_cons (by decide) fun _ => next others
      have stays : (Cursor.literal '"').advance ['"'] _ = .literal '"' :=
        (if_neg notEscape).trans (if_neg notQuote)
      rw [stays] at later
      obtain ⟨after, rfl, behind⟩ := ih others later
      exact ⟨after, rfl, behind⟩
  | escaped _ ih =>
      obtain ⟨-, escaped⟩ := not_or.mp (List.mem_cons.not.mp noBreak)
      obtain ⟨-, others⟩ := not_or.mp (List.mem_cons.not.mp escaped)
      obtain ⟨worn, rfl, within⟩ :=
        wears.inside_cons (by decide) fun comma => absurd comma (by decide)
      have escapes : (Cursor.literal '"').advance ['"'] '\\' = .escape '"' := rfl
      rw [escapes] at within
      obtain ⟨worn, rfl, later⟩ :=
        within.inside_cons (by decide) fun _ => next others
      obtain ⟨after, rfl, behind⟩ := ih others later
      exact ⟨after, rfl, behind⟩

theorem of_writeText {text : String} (wears : Worn .code (writeText text ++ rest) worn) :
    ∃ after, worn = writeText text ++ after ∧ Worn .code rest after := by
  have opened : Worn .code
      ('"' :: (text.toList.flatMap escapeChar ++ '"' :: rest)) worn := by
    simpa [writeText] using wears
  obtain ⟨worn, rfl, later⟩ := opened.code_cons (by decide)
  obtain ⟨after, rfl, behind⟩ :=
    later.of_body (literalBody_escaped text) (notMem_escaped _)
  exact ⟨after, by simp [writeText], behind⟩

theorem eq_nil (wears : Worn cursor [] worn) : worn = [] := by
  obtain ⟨text, empty⟩ : ∃ text : List Char, text = [] := ⟨_, rfl⟩
  rw [← empty] at wears
  cases wears with
  | nil => rfl
  | kept | lost => cases empty
  | respelled spelling _ =>
      obtain ⟨first, letters, rfl, -⟩ := exists_first_letter spelling
      cases empty

theorem of_name {first : Char} {letters : List Char} (plain : first ∉ ['"', ','])
    (steady : letters.all isSteady = true)
    (alone : (foreignSpellings.all fun pair =>
      pair.1.head?.any (· != first) || pair.1 == first :: letters) = true)
    (wears : Worn .code (first :: letters ++ rest) worn) :
    ∃ spelled after, worn = spelled ++ after ∧ Worn .code rest after ∧
      (spelled = first :: letters ∨ (first :: letters, spelled) ∈ foreignSpellings) := by
  rcases wears.cons_cases with ⟨worn, rfl, later⟩ | ⟨rfl, -⟩ |
    ⟨-, strict, foreign, others, after, spelling, whole, rfl, later⟩
  · have stays : Cursor.code.advance ['"'] first = .code :=
      if_neg fun quote => plain (List.mem_cons.mpr (.inl (List.mem_singleton.mp quote)))
    rw [stays] at later
    obtain ⟨after, rfl, behind⟩ := of_code (List.all_eq_true.mp steady) later
    exact ⟨first :: letters, after, rfl, behind, .inl rfl⟩
  · exact absurd (by decide) plain
  · have same : strict = first :: letters := by
      have named := List.all_eq_true.mp alone _ spelling
      cases strict with
      | nil => cases named
      | cons char strict =>
          rw [(List.cons.inj whole).1]
          simpa [(List.cons.inj whole).1] using named
    subst same
    have whole : first :: letters ++ rest = first :: letters ++ others := whole
    rw [← List.append_cancel_left whole] at later
    exact ⟨foreign, after, rfl, later, .inr spelling⟩

theorem of_word {word : Word} (finite : word.value.isFinite = true)
    (wears : Worn .code (word.text ++ rest) worn) :
    ∃ spelled after, worn = spelled ++ after ∧ Worn .code rest after ∧
      (spelled = word.text ∨ (word.text, spelled) ∈ foreignSpellings) := by
  cases word with
  | null | true | false => exact wears.of_name (by decide) (by decide) (by decide)
  | nan | infinity | negativeInfinity => cases finite
  | number numeral =>
      have steady : ∀ char ∈ numeral.text, isSteady char = true := by
        intro char member
        have number := isNumberChar_of_mem_numeral numeral char member
        exact isSteady_of_class rfl number
      obtain ⟨after, same, later⟩ := wears.of_code steady
      exact ⟨numeral.text, after, same, later, .inl rfl⟩

end Worn

/-! ## Where values begin and end -/

theorem beginsValue_of_isDigit {char : Char} (digit : isDigit char = true) :
    beginsValue char = true := by
  rw [beginsValue, Bool.or_eq_true]
  exact .inr digit

theorem endsValue_of_isDigit {char : Char} (digit : isDigit char = true) :
    endsValue char = true := by
  rw [endsValue, Bool.or_eq_true]
  exact .inr digit

theorem beginsValue_numeral (numeral : Numeral) :
    numeral.text.head?.any beginsValue = true := by
  obtain ⟨char, rest, unsigned, digit⟩ := exists_unsigned numeral
  rw [Numeral.text, unsigned]
  split
  · rfl
  · exact beginsValue_of_isDigit digit

theorem endsValue_append (front : List Char) {back : List Char}
    (ends : back.getLast?.any endsValue = true) :
    (front ++ back).getLast?.any endsValue = true := by
  rw [List.getLast?_append]
  cases last : back.getLast? with
  | none => rw [last] at ends; cases ends
  | some char => rwa [last] at ends

theorem endsValue_digits {digits : List Char} (nonempty : digits ≠ [])
    (decimal : ∀ char ∈ digits, isDigit char = true) :
    digits.getLast?.any endsValue = true := by
  rw [List.getLast?_eq_some_getLast nonempty, Option.any_some]
  exact endsValue_of_isDigit (decimal _ (List.getLast_mem nonempty))

/-- Every part of a number ends in a digit. -/
theorem endsValue_numeral (numeral : Numeral) :
    numeral.text.getLast?.any endsValue = true := by
  have mantissa :
      (numeral.whole ++ numeral.fractionText).getLast?.any endsValue = true := by
    have whole := endsValue_digits numeral.nonempty numeral.wholeDecimal
    rw [Numeral.fractionText]
    split
    next => rwa [List.append_nil]
    next digits =>
      have fraction := endsValue_digits (by simpa using digits) numeral.fractionDecimal
      exact endsValue_append _ (endsValue_append ['.'] fraction)
  have unsigned : numeral.unsigned.getLast?.any endsValue = true := by
    rw [Numeral.unsigned, ← List.append_assoc, Numeral.powerText]
    split
    next => rwa [List.append_nil]
    next power _ =>
      have digits := endsValue_digits power.nonempty power.decimal
      exact endsValue_append _ (endsValue_append (power.mark :: power.sign.toList) digits)
  rw [Numeral.text]
  split
  · exact endsValue_append ['-'] unsigned
  · exact unsigned

theorem ends_of_isFinite {word : Word} (finite : word.value.isFinite = true) :
    word.text.head?.any beginsValue = true ∧
      word.text.getLast?.any endsValue = true := by
  cases word with
  | null | true | false => exact ⟨rfl, rfl⟩
  | nan | infinity | negativeInfinity => cases finite
  | number numeral => exact ⟨beginsValue_numeral numeral, endsValue_numeral numeral⟩

/-! ## Mending what is worn -/

namespace Spot

/-- Whether a value has just ended at a spot. -/
def Ends (spot : Spot) : Prop :=
  spot.between = .nothing ∧ spot.last.any endsValue = true

/-- Whether a list or a record may be closed at a spot. -/
def Closable (spot : Spot) : Prop :=
  spot.between ≠ .lostComma ∧ spot.last ≠ some ','

end Spot

/-- Where a spot is as it should be before a text, any worn copy of the text
falls into ordered segments that are restored to it, and behind them the spot is
as it should be again. -/
def Mends (before : Spot → Prop) (original : List Char) (behind : Spot → Prop) :
    Prop :=
  ∀ spot rest worn, before spot → Worn .code (original ++ rest) worn →
    ∃ segments after, worn = segments.flatMap Segment.text ++ after ∧
      Worn .code rest after ∧ Ordered spot segments ∧
      segments.flatMap Segment.strict = original ∧
      behind (spot.afterAll segments)

namespace Mends

variable {before between behind : Spot → Prop} {original more : List Char}

theorem append (first : Mends before original between)
    (second : Mends between more behind) : Mends before (original ++ more) behind := by
  intro spot rest worn ready wears
  rw [List.append_assoc] at wears
  obtain ⟨front, worn, rfl, later, ordered, rfl, ready⟩ :=
    first _ _ _ ready wears
  obtain ⟨back, after, rfl, last, further, rfl, stands⟩ :=
    second _ _ _ ready later
  refine ⟨front ++ back, after, by simp, last, ordered_append.mpr ⟨ordered, further⟩,
    by simp, ?_⟩
  rwa [Spot.afterAll, List.foldl_append]

theorem of_segment
    (found : ∀ {rest worn}, Worn .code (original ++ rest) worn →
      ∃ (segment : Segment) (after : List Char), worn = segment.text ++ after ∧
        Worn .code rest after ∧ segment.strict = original ∧
        ∀ spot, before spot → segment.Fits spot ∧ behind (spot.after segment)) :
    Mends before original behind := by
  intro spot rest worn ready wears
  obtain ⟨segment, after, rfl, later, strict, stands⟩ := found wears
  obtain ⟨fits, further⟩ := stands spot ready
  exact ⟨[segment], after, by simp, later, ⟨fits, trivial⟩, by simpa using strict,
    further⟩

theorem nil (holds : Spot → Prop) : Mends holds [] holds :=
  fun _ _ _ ready wears => ⟨[], _, rfl, wears, trivial, rfl, ready⟩

/-- Less may be asked behind a text, and more before it. -/
theorem imp {stricter looser : Spot → Prop} (mends : Mends before original behind)
    (asked : ∀ spot, stricter spot → before spot)
    (left : ∀ spot, behind spot → looser spot) : Mends stricter original looser := by
  intro spot rest worn ready wears
  obtain ⟨segments, after, same, later, ordered, strict, stands⟩ :=
    mends _ _ _ (asked spot ready) wears
  exact ⟨segments, after, same, later, ordered, strict, left _ stands⟩

theorem of_mark {sign : Mark} (kept : sign ≠ .comma)
    (stands : ∀ spot, before spot →
      sign.fits spot = true ∧ behind ⟨some sign.char, .nothing⟩) :
    Mends before [sign.char] behind := by
  refine of_segment fun wears => ?_
  have steady : ∀ char ∈ [sign.char], isSteady char = true := by
    rw [List.forall_mem_singleton]
    cases sign <;> first | rfl | exact absurd rfl kept
  obtain ⟨after, same, later⟩ := wears.of_code steady
  exact ⟨.mark sign, after, same, later, rfl, stands⟩

theorem of_blank {char : Char} (separates : isSeparator char = true)
    (stands : ∀ spot, before spot → behind (spot.after (.blank char separates))) :
    Mends before [char] behind := by
  refine of_segment fun wears => ?_
  have steady : ∀ next ∈ [char], isSteady next = true := by
    rw [List.forall_mem_singleton]
    exact isSteady_of_class rfl separates
  obtain ⟨after, same, later⟩ := wears.of_code steady
  exact ⟨.blank char separates, after, same, later, rfl, fun spot ready =>
    ⟨trivial, stands spot ready⟩⟩

/-- Blanks are kept; what holds behind each of them holds behind them all. -/
theorem of_blanks {holds : Spot → Prop}
    (spaced : ∀ spot char separates, holds spot →
      holds (spot.after (.blank char separates)))
    {blanks : List Char} (separate : ∀ char ∈ blanks, isSeparator char = true) :
    Mends holds blanks holds := by
  induction blanks with
  | nil => exact nil holds
  | cons char blanks ih =>
      obtain ⟨first, others⟩ := List.forall_mem_cons.mp separate
      have blank : Mends holds [char] holds :=
        of_blank first fun spot => spaced spot char first
      exact blank.append (ih others)

/-- A comma at the end of a line is kept or lost. -/
theorem of_comma : Mends Spot.Ends [',', '\n'] (·.awaitsValue) := by
  intro spot rest worn ends wears
  obtain ⟨tight, last⟩ := ends
  have feed {worn : List Char} (later : Worn .code ('\n' :: rest) worn) :
      ∃ after, worn = '\n' :: after ∧ Worn .code rest after :=
    later.code_cons (by decide)
  rcases wears.cons_cases with ⟨worn, rfl, later⟩ | ⟨-, -, later⟩ |
    ⟨-, strict, foreign, others, after, spelling, whole, -⟩
  · obtain ⟨after, rfl, behind⟩ := feed later
    exact ⟨[.mark .comma, .blank '\n' rfl], after, rfl, behind,
      ⟨by simp [Segment.Fits, Mark.fits, tight], trivial, trivial⟩, rfl, rfl⟩
  · obtain ⟨after, rfl, behind⟩ := feed later
    exact ⟨[.lost], after, rfl, behind, ⟨⟨tight, last⟩, trivial⟩, rfl, rfl⟩
  · obtain ⟨first, letters, rfl, named⟩ := exists_first_letter spelling
    rw [← (List.cons.inj whole).1] at named
    exact absurd named (by decide)

end Mends

theorem closable_blank (spot : Spot) (char : Char) (separates : isSeparator char = true)
    (closable : spot.Closable) : (spot.after (.blank char separates)).Closable := by
  refine ⟨?_, closable.2⟩
  have kept := closable.1
  cases between : spot.between <;> simp [Spot.after, Between.spaced, between]
  exact kept between

theorem closable_of_ends (spot : Spot) (ends : spot.Ends) : spot.Closable := by
  obtain ⟨tight, last⟩ := ends
  refine ⟨by simp [tight], fun comma => ?_⟩
  rw [comma] at last
  cases last

theorem mends_word {word : Word} (finite : word.value.isFinite = true) :
    Mends (·.awaitsValue) word.text Spot.Ends := by
  obtain ⟨begins, ends⟩ := ends_of_isFinite finite
  refine .of_segment fun wears => ?_
  obtain ⟨spelled, after, same, later, known⟩ := wears.of_word finite
  exact ⟨.word word spelled known, after, same, later, rfl, fun spot awaits =>
    ⟨⟨awaits, fun _ => begins⟩, rfl, ends⟩⟩

theorem mends_writeText (text : String) :
    Mends (·.awaitsValue) (writeText text) fun spot => spot = ⟨some '"', .nothing⟩ := by
  refine .of_segment fun wears => ?_
  obtain ⟨after, same, later⟩ := wears.of_writeText
  exact ⟨.literal _ (literalBody_escaped text), after, same, later, rfl,
    fun spot awaits => ⟨awaits, rfl⟩⟩

section Written

variable (step : Int) (level : Nat)

theorem mends_lineBreak {holds : Spot → Prop}
    (spaced : ∀ spot char separates, holds spot →
      holds (spot.after (.blank char separates))) :
    Mends holds (lineBreak step level) holds :=
  .of_blanks spaced (isSeparator_of_mem_lineBreak step level)

theorem mends_next {item : List Char} (mends : Mends (·.awaitsValue) item Spot.Ends) :
    Mends Spot.Ends (',' :: lineBreak step level ++ item) Spot.Ends := by
  have indented : Mends (·.awaitsValue)
      (List.replicate (step * level).toNat ' ') (·.awaitsValue) :=
    .of_blanks awaitsValue_blank fun char member => by
      rw [List.eq_of_mem_replicate member]
      rfl
  exact (Mends.of_comma.append indented).append mends

/-- Items between two brackets are restored when each of them is. -/
theorem mends_bracketed (opening closing : Mark)
    (opens : opening = .openRecord ∨ opening = .openList)
    (closes : closing = .closeRecord ∨ closing = .closeList) {items : List (List Char)}
    (mends : ∀ item ∈ items, Mends (·.awaitsValue) item Spot.Ends) :
    Mends (·.awaitsValue) (bracketed opening.char closing.char step level items)
      Spot.Ends := by
  have opened {behind : Spot → Prop} (stands : behind ⟨some opening.char, .nothing⟩) :
      Mends (·.awaitsValue) [opening.char] behind :=
    .of_mark (by rcases opens with rfl | rfl <;> decide) fun spot awaits =>
      ⟨by rcases opens with rfl | rfl <;> exact awaits, stands⟩
  have closed : Mends Spot.Closable [closing.char] Spot.Ends :=
    .of_mark (by rcases closes with rfl | rfl <;> decide) fun spot closable => by
      obtain ⟨kept, noComma⟩ := closable
      rcases closes with rfl | rfl <;>
        exact ⟨by simp [Mark.fits, kept, noComma], rfl, rfl⟩
  cases items with
  | nil =>
      have empty : Spot.Closable ⟨some opening.char, .nothing⟩ := by
        rcases opens with rfl | rfl <;> exact ⟨by decide, by decide⟩
      exact (opened empty).append closed
  | cons item items =>
      obtain ⟨first, others⟩ := List.forall_mem_cons.mp mends
      have awaits : Spot.awaitsValue ⟨some opening.char, .nothing⟩ = true := by
        rcases opens with rfl | rfl <;> rfl
      have rest : Mends Spot.Ends
          (items.flatMap fun next => ',' :: lineBreak step (level + 1) ++ next)
          Spot.Ends := by
        clear mends
        induction items with
        | nil => exact .nil _
        | cons next items ih =>
            obtain ⟨next, later⟩ := List.forall_mem_cons.mp others
            rw [List.flatMap_cons]
            exact (mends_next step (level + 1) next).append (ih later)
      have ended := ((((opened awaits).append
        (mends_lineBreak step (level + 1) awaitsValue_blank)).append first).append
          rest).imp (fun _ ready => ready) closable_of_ends
      exact (ended.append (mends_lineBreak step level closable_blank)).append closed

end Written

theorem mends_field (name : String) {content : List Char}
    (mends : Mends (·.awaitsValue) content Spot.Ends) :
    Mends (·.awaitsValue) (writeText name ++ ':' :: ' ' :: content) Spot.Ends := by
  have colon : Mends (fun spot => spot = ⟨some '"', .nothing⟩) [Mark.colon.char]
      (·.awaitsValue) :=
    .of_mark (by decide) fun spot named => by rw [named]; exact ⟨rfl, rfl⟩
  have blank : Mends (·.awaitsValue) [' '] (·.awaitsValue) :=
    .of_blank rfl fun spot => awaitsValue_blank spot ' ' rfl
  exact (mends_writeText name).append (colon.append (blank.append mends))

mutual

theorem mends_writeValue (step : Int) (level : Nat) :
    (value : Value) → value.isProper = true → value.isFinite = true →
      Mends (·.awaitsValue) (writeValue step level value) Spot.Ends
  | .scalar scalar, proper, finite => by
      rw [Value.isProper] at proper
      rw [Value.isFinite] at finite
      rw [writeValue]
      rcases exists_word proper with ⟨text, rfl⟩ | ⟨word, written, rfl⟩
      · exact (mends_writeText text).imp (fun _ ready => ready) fun spot ended => by
          rw [ended]
          exact ⟨rfl, rfl⟩
      · rw [← written]
        exact mends_word finite
  | .list items, proper, finite => by
      rw [Value.isProper] at proper
      rw [Value.isFinite] at finite
      rw [writeValue]
      exact mends_bracketed step level .openList .closeList (.inr rfl) (.inr rfl)
        (mends_writeItems step (level + 1) items proper finite)
  | .record fields, proper, finite => by
      rw [Value.isProper, Bool.and_eq_true] at proper
      rw [Value.isFinite] at finite
      rw [writeValue]
      exact mends_bracketed step level .openRecord .closeRecord (.inl rfl) (.inl rfl)
        (mends_writeFields step (level + 1) fields proper.2 finite)

theorem mends_writeItems (step : Int) (level : Nat) :
    (items : List Value) → areProper items = true → areFinite items = true →
      ∀ text ∈ writeItems step level items, Mends (·.awaitsValue) text Spot.Ends
  | [], _, _ => by rw [writeItems]; exact List.forall_mem_nil _
  | item :: rest, proper, finite => by
      rw [areProper, Bool.and_eq_true] at proper
      rw [areFinite, Bool.and_eq_true] at finite
      rw [writeItems, List.forall_mem_cons]
      exact ⟨mends_writeValue step level item proper.1 finite.1,
        mends_writeItems step level rest proper.2 finite.2⟩

theorem mends_writeFields (step : Int) (level : Nat) :
    (fields : List (String × Value)) → areProperFields fields = true →
      areFiniteFields fields = true →
      ∀ text ∈ writeFields step level fields, Mends (·.awaitsValue) text Spot.Ends
  | [], _, _ => by rw [writeFields]; exact List.forall_mem_nil _
  | (name, content) :: rest, proper, finite => by
      rw [areProperFields, Bool.and_eq_true] at proper
      rw [areFiniteFields, Bool.and_eq_true] at finite
      rw [writeFields, List.forall_mem_cons]
      exact ⟨mends_field name (mends_writeValue step level content proper.1 finite.1),
        mends_writeFields step level rest proper.2 finite.2⟩

end

/-- A worn copy of a written document falls into segments that are restored to
it. -/
theorem exists_restores_of_worn (step : Int) {value : Value}
    (proper : value.isProper = true) (finite : value.isFinite = true)
    {worn : List Char} (wears : Worn .code (Json.write step value) worn) :
    ∃ segments, Restores .start worn (Json.write step value) segments := by
  rw [← List.append_nil (Json.write step value)] at wears
  obtain ⟨segments, after, rfl, rest, ordered, strict, ended⟩ :=
    mends_writeValue step 0 value proper finite .start [] worn rfl wears
  refine ⟨segments, ordered, ?_, ?_, strict⟩
  · rw [ended.1]
    decide
  · rw [rest.eq_nil, List.append_nil]

/-- A written document is strict JSON. -/
theorem accepted_write (step : Int) {value : Value} (proper : value.isProper = true)
    (finite : value.isFinite = true) :
    Json.read (Json.write step value) = .ok value := by
  obtain ⟨segments, restores⟩ :=
    exists_restores_of_worn step proper finite (.refl _ _)
  have read := read_of_spells (spells_writeValue step 0 value proper)
  rwa [← Json.write, stripComments_of_restores restores,
    normalize_of_restores restores] at read

end TwinSchema.Relaxed
