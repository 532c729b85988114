import TwinSchema.Proofs.Json.Integers
import TwinSchema.Proofs.Json.Steps
import TwinSchema.Proofs.Text.Literal
import TwinSchema.Proofs.Text.Visible

/-!
# Where reading stops

The reader of JSON stops at an integer of too many digits that stands where a
value is due. A scan of the text for integers passes over the same tokens, so it
finds that integer.
-/

namespace TwinSchema.Json

open Text

/-- Whether one text is what remains of another after a beginning over which a
scan in strict JSON gets from one position to another. -/
def Passes (start stop : Cursor) (text rest : List Char) : Prop :=
  ∃ front, text = front ++ rest ∧ start.after ['"'] front = stop

/-- Code without quotes leaves a scan in code. -/
theorem after_code {code : List Char} (noQuote : '"' ∉ code) :
    Cursor.code.after ['"'] code = .code := by
  induction code with
  | nil => rfl
  | cons char code ih =>
      rw [List.mem_cons, not_or] at noQuote
      have stays : Cursor.code.advance ['"'] char = .code := by
        simp [Cursor.advance, Ne.symm noQuote.1]
      rw [Cursor.after, List.foldl_cons, stays]
      exact ih noQuote.2

namespace Passes

theorem refl (cursor : Cursor) (text : List Char) : Passes cursor cursor text text :=
  ⟨[], rfl, rfl⟩

theorem trans {start middle stop : Cursor} {first second third : List Char}
    (left : Passes start middle first second)
    (right : Passes middle stop second third) : Passes start stop first third := by
  obtain ⟨front, rfl, passed⟩ := left
  obtain ⟨between, rfl, after⟩ := right
  refine ⟨front ++ between, (List.append_assoc _ _ _).symm, ?_⟩
  rw [Cursor.after_append, passed, after]

theorem plain {char : Char} (noQuote : char ≠ '"') (rest : List Char) :
    Passes .code .code (char :: rest) rest :=
  ⟨[char], rfl, after_code (by simpa using Ne.symm noQuote)⟩

theorem of_code {front : List Char} (noQuote : '"' ∉ front) (rest : List Char) :
    Passes .code .code (front ++ rest) rest :=
  ⟨front, rfl, after_code noQuote⟩

theorem dropWhile {test : Char → Bool} (stops : test '"' = false)
    (text : List Char) : Passes .code .code text (text.dropWhile test) := by
  have noQuote : '"' ∉ text.takeWhile test := by
    intro member
    have inside := List.all_eq_true.mp (List.all_takeWhile (p := test)) _ member
    rw [inside] at stops
    cases stops
  have passed := of_code noQuote (text.dropWhile test)
  rwa [List.takeWhile_append_dropWhile] at passed

/-- What a scan finds after a part of a text it finds in the text. -/
theorem integersFrom_subset {start stop : Cursor} {text rest : List Char}
    (passes : Passes start stop text rest) (scan : NumberScan) :
    ∃ later, integersFrom ['"'] stop later rest ⊆ integersFrom ['"'] start scan text := by
  obtain ⟨front, rfl, rfl⟩ := passes
  induction front generalizing start scan with
  | nil => exact ⟨scan, List.Subset.refl _⟩
  | cons char front ih =>
      cases start with
      | code =>
          by_cases quote : char ∈ ['"']
          · obtain ⟨later, found⟩ := @ih (.literal char) .word
            refine ⟨later, ?_⟩
            simp only [Cursor.after, List.foldl_cons, Cursor.advance, quote, if_true,
              List.cons_append, integersFrom]
            exact List.Subset.trans found (List.subset_append_right _ _)
          · obtain ⟨later, found⟩ := @ih .code (scan.advance char)
            refine ⟨later, ?_⟩
            simp only [Cursor.after, List.foldl_cons, Cursor.advance, quote, if_false,
              List.cons_append, integersFrom]
            exact List.Subset.trans found (List.subset_append_right _ _)
      | literal | escape =>
          rw [List.cons_append, integersFrom]
          · exact ih .word
          · simp

end Passes

theorem hexDigit?_plain {char : Char} {digit : Nat}
    (found : hexDigit? char = some digit) : char ≠ '"' ∧ char ≠ '\\' := by
  constructor <;> rintro rfl <;> cases found

theorem codeUnit?_plain {first second third fourth : Char} {unit : Nat}
    (found : codeUnit? first second third fourth = some unit) :
    ∀ char ∈ [first, second, third, fourth], char ≠ '"' ∧ char ≠ '\\' := by
  simp only [codeUnit?, Option.bind_eq_bind, Option.bind_eq_some_iff] at found
  obtain ⟨_, one, _, two, _, three, _, four, -⟩ := found
  simp only [List.forall_mem_cons, List.not_mem_nil, false_implies, implies_true,
    and_true]
  exact ⟨hexDigit?_plain one, hexDigit?_plain two, hexDigit?_plain three,
    hexDigit?_plain four⟩

theorem exists_of_consUnit {unit : Nat} {units : List Nat} {rest : List Char}
    {result : Except Mistake (List Nat × List Char)}
    (found : consUnit unit result = .ok (units, rest)) :
    ∃ others, result = .ok (others, rest) := by
  cases result with
  | error => cases found
  | ok pair =>
      cases found
      exact ⟨_, rfl⟩

/-- A text that is read is what stands between two quotes. -/
theorem exists_body_of_readUnits {whole text rest : List Char} {units : List Nat}
    (found : readUnits whole text = .ok (units, rest)) :
    ∃ body, text = body ++ '"' :: rest ∧ LiteralBody '"' body := by
  fun_induction readUnits whole text generalizing units with
  | case2 =>
      cases found
      exact ⟨[], rfl, .nil⟩
  | case5 =>
      rename_i named _ _ ih
      obtain ⟨others, read⟩ := exists_of_consUnit found
      obtain ⟨body, rfl, inside⟩ := ih read
      have digits : LiteralBody '"' _ := .of_plain fun char member =>
        (codeUnit?_plain named char member).symm
      exact ⟨_, rfl, .escaped (digits.append inside)⟩
  | case8 =>
      rename_i ih
      obtain ⟨others, read⟩ := exists_of_consUnit found
      obtain ⟨body, rfl, inside⟩ := ih read
      exact ⟨_, rfl, .escaped inside⟩
  | case11 =>
      rename_i notQuote notEscape _ ih
      obtain ⟨others, read⟩ := exists_of_consUnit found
      obtain ⟨body, rfl, inside⟩ := ih read
      exact ⟨_, rfl, .plain notEscape notQuote inside⟩
  | _ => cases found

theorem passes_readUnits {whole text rest : List Char} {units : List Nat}
    (found : readUnits whole text = .ok (units, rest)) :
    Passes (.literal '"') .code text rest := by
  obtain ⟨body, rfl, inside⟩ := exists_body_of_readUnits found
  exact ⟨body ++ ['"'], by simp, inside.after_closed ['"'] (by decide)⟩

section Numbers

variable {text rest : List Char}

theorem passes_wholePart? {digits : List Char}
    (found : wholePart? text = some (digits, rest)) : Passes .code .code text rest := by
  cases text with
  | nil => cases found
  | cons char text =>
      rw [wholePart?] at found
      split at found
      next zero =>
        cases found
        rw [zero]
        exact Passes.plain (by decide) _
      next =>
        split at found
        next digit =>
          cases found
          have noQuote : char ≠ '"' := by
            rintro rfl
            cases digit
          exact (Passes.plain noQuote _).trans (Passes.dropWhile rfl _)
        next => cases found

theorem passes_fractionPart (text : List Char) :
    Passes .code .code text (fractionPart text).2 := by
  fun_cases fractionPart text with
  | case1 => exact Passes.refl _ _
  | case2 rest => exact (Passes.plain (by decide) _).trans (Passes.dropWhile rfl _)
  | case3 => exact Passes.refl _ _

theorem passes_splitSign (text : List Char) :
    Passes .code .code text (splitSign text).2 := by
  fun_cases splitSign text with
  | case1 => exact Passes.plain (by decide) _
  | case2 => exact Passes.plain (by decide) _
  | case3 => exact Passes.refl _ _

theorem passes_exponentPart (text : List Char) :
    Passes .code .code text (exponentPart text).2 := by
  fun_cases exponentPart text with
  | case1 => exact Passes.refl _ _
  | case2 => exact Passes.refl _ _
  | case3 mark rest marked negative unsigned sign =>
      have noQuote : mark ≠ '"' := by
        rcases marked with rfl | rfl <;> decide
      have signed := passes_splitSign rest
      rw [sign] at signed
      exact (Passes.plain noQuote _).trans (signed.trans (Passes.dropWhile rfl _))
  | case4 => exact Passes.refl _ _

/-- A number is passed over; it is a value without parts or an integer of too
many digits. -/
theorem numberToken?_eq_some {negative : Bool} {token : Token}
    (found : numberToken? negative text = some (token, rest)) :
    Passes .code .code text rest ∧
      ((∃ value, token = .scalar value) ∨ ∃ digits, token = .longInteger digits) := by
  unfold numberToken? at found
  split at found
  next => cases found
  next whole afterWhole wholeFound =>
    have passed := (passes_wholePart? wholeFound).trans
      ((passes_fractionPart afterWhole).trans (passes_exponentPart _))
    simp only at found
    split at found
    · split at found
      · cases found
        exact ⟨passed, .inr ⟨_, rfl⟩⟩
      · cases found
        exact ⟨passed, .inl ⟨_, rfl⟩⟩
    · cases found
      exact ⟨passed, .inl ⟨_, rfl⟩⟩

end Numbers

/-- What remains after a number, or nothing. -/
theorem passes_getD_numberToken? (negative : Bool) (text : List Char) :
    ((numberToken? negative text).getD (.unknown, [])).2 = [] ∨
      Passes .code .code text ((numberToken? negative text).getD (.unknown, [])).2 := by
  cases found : numberToken? negative text with
  | none => exact .inl rfl
  | some pair => exact .inr (numberToken?_eq_some found).1

theorem passes_dropWord? {word text rest : List Char} (noQuote : '"' ∉ word)
    (dropped : dropWord? word text = some rest) : Passes .code .code text rest := by
  rw [dropWord?_eq_some dropped]
  exact Passes.of_code noQuote rest

theorem passes_nameToken {name : String} (noQuote : '"' ∉ name.toList)
    {first : Char} (plain : first ≠ '"') (scalar : Scalar) (rest : List Char) :
    (nameToken name scalar rest).2 = [] ∨
      Passes .code .code (first :: rest) (nameToken name scalar rest).2 := by
  unfold nameToken
  split
  next after dropped =>
    exact .inr ((Passes.plain plain _).trans (passes_dropWord? noQuote dropped))
  next => exact .inl rfl

/-- A scan passes over a token, unless nothing is read beyond it. -/
theorem passes_nextToken (char : Char) (rest : List Char) :
    (nextToken char rest).2 = [] ∨
      Passes .code .code (char :: rest) (nextToken char rest).2 := by
  unfold nextToken
  split
  any_goals exact .inr (Passes.plain (by decide) rest)
  any_goals exact passes_nameToken (by decide) (by decide) _ rest
  · split
    next units after found =>
      exact .inr (Passes.trans ⟨['"'], rfl, rfl⟩ (passes_readUnits found))
    next => exact .inl rfl
  · split
    next after dropped =>
      exact .inr ((Passes.plain (by decide) _).trans
        (passes_dropWord? (by decide) dropped))
    next =>
      exact (passes_getD_numberToken? true rest).imp id
        fun passed => (Passes.plain (by decide) _).trans passed
  · exact passes_getD_numberToken? false (char :: rest)

/-! ## Where a value is due -/

/-- The tokens after which a value is due. -/
def Token.introduces : Token → Bool
  | .openList | .comma | .colon => true
  | _ => false

theorem introduces_getD_numberToken? (negative : Bool) (text : List Char) :
    ((numberToken? negative text).getD (.unknown, [])).1.introduces = false := by
  cases found : numberToken? negative text with
  | none => rfl
  | some pair =>
      rcases (numberToken?_eq_some found).2 with ⟨value, same⟩ | ⟨digits, same⟩ <;>
        rw [Option.getD_some, same] <;> rfl

theorem introduces_nameToken (name : String) (scalar : Scalar) (rest : List Char) :
    (nameToken name scalar rest).1.introduces = false := by
  unfold nameToken
  split <;> rfl

theorem introduces_nextToken {char : Char} (other : char ∉ ['[', ',', ':'])
    (rest : List Char) : (nextToken char rest).1.introduces = false := by
  unfold nextToken
  split
  any_goals exact introduces_nameToken _ _ _
  · rfl
  · rfl
  · exact absurd (by decide) other
  · rfl
  · exact absurd (by decide) other
  · exact absurd (by decide) other
  · split <;> rfl
  · split
    · rfl
    · exact introduces_getD_numberToken? _ _
  · exact introduces_getD_numberToken? _ _

/-- A value is due after single signs alone. -/
theorem nextToken_of_introduces {char : Char} {rest : List Char}
    (introduces : (nextToken char rest).1.introduces = true) :
    char ∈ ['[', ',', ':'] ∧ (nextToken char rest).2 = rest := by
  by_cases sign : char ∈ ['[', ',', ':']
  · refine ⟨sign, ?_⟩
    simp only [List.mem_cons, List.not_mem_nil, or_false] at sign
    rcases sign with rfl | rfl | rfl <;> rfl
  · rw [introduces_nextToken sign] at introduces
    cases introduces

/-- Whether a value may come next. -/
def State.awaitsValue : State → Bool
  | .valueDue _ | .itemOrEnd _ => true
  | _ => false

/-- A step after which a value may come next takes a token that introduces
one. -/
theorem Steps.introduces {state next : State} {token : Token}
    (steps : Steps state token next) (awaits : next.awaitsValue = true) :
    token.introduces = true := by
  cases steps with
  | value begins | item begins => cases begins <;> first | rfl | cases awaits
  | colon | nextItem => rfl
  | _ => cases awaits

/-- An integer of too many digits stops the reader where a value may come. -/
theorem awaitsValue_of_step {state : State} {lexeme : Lexeme} {digits : Nat}
    (stopped : state.step lexeme = .error (.longInteger digits)) :
    state.awaitsValue = true ∧ lexeme.token = .longInteger digits := by
  have begun {frames : List Frame}
      (begun : beginValue frames lexeme = .error (.longInteger digits)) :
      lexeme.token = .longInteger digits := by
    rw [beginValue] at begun
    split at begun
    any_goals cases begun
    assumption
  have named {fields : List (String × Value)} {frames : List Frame} :
      beginField fields frames lexeme ≠ .error (.longInteger digits) := by
    rw [beginField]
    split <;> intro same <;> cases same
  unfold State.step at stopped
  split at stopped
  next => exact ⟨rfl, begun stopped⟩
  next => cases stopped
  next => exact ⟨rfl, begun stopped⟩
  next => cases stopped
  next => exact absurd stopped named
  next => exact absurd stopped named
  all_goals cases stopped

/-! ## Integers of too many digits -/

section Long

variable {digits : Nat}

/-- In strict JSON a scan goes on behind every character but a quote. -/
theorem integersFrom_plain {char : Char} (noQuote : char ≠ '"') (scan : NumberScan)
    (rest : List Char) :
    integersFrom ['"'] .code (scan.advance char) rest ⊆
      integersFrom ['"'] .code scan (char :: rest) :=
  integersFrom_advance (by simpa using noQuote) scan rest

theorem ended_subset (quotes : List Char) (scan : NumberScan) (text : List Char) :
    scan.ended text.head? ⊆ integersFrom quotes .code scan text := by
  cases text with
  | nil => exact List.Subset.refl _
  | cons char rest => exact List.subset_append_left _ _

theorem mem_integersFrom_ended (scan : NumberScan) {text : List Char}
    (found : scan.integer? = some digits)
    (stops : (text.head?.any fun char => scan.goesOn char) = false) :
    digits ∈ integersFrom ['"'] .code scan text := by
  apply ended_subset
  rw [NumberScan.ended, stops, found]
  exact List.mem_singleton.mpr rfl

theorem mem_integersFrom_point {text : List Char}
    (ends : (text.head?.any isDigit) = false) :
    digits ∈ integersFrom ['"'] .code (.whole digits) ('.' :: text) :=
  integersFrom_plain (by decide) (.whole digits) text
    (mem_integersFrom_ended (.point digits) rfl ends)

/-- An integer is found before the letter of an exponent without digits. -/
theorem mem_integersFrom_mark {letter : Char} (marks : letter = 'e' ∨ letter = 'E')
    {text : List Char} (ends : ((splitSign text).2.head?.any isDigit) = false) :
    digits ∈ integersFrom ['"'] .code (.whole digits) (letter :: text) := by
  have advanced : NumberScan.advance letter (.whole digits) = .mark digits := by
    rcases marks with rfl | rfl <;> rfl
  have noQuote : letter ≠ '"' := by
    rcases marks with rfl | rfl <;> decide
  apply integersFrom_plain noQuote
  rw [advanced]
  fun_cases splitSign text with
  | case1 rest =>
      exact integersFrom_plain (by decide) (.mark digits) rest
        (mem_integersFrom_ended (.power digits) rfl ends)
  | case2 rest =>
      exact integersFrom_plain (by decide) (.mark digits) rest
        (mem_integersFrom_ended (.power digits) rfl ends)
  | case3 text noMinus noPlus =>
      refine mem_integersFrom_ended _ rfl ?_
      cases text with
      | nil => rfl
      | cons char rest =>
          have minus : char ≠ '-' := fun same => noMinus rest (by rw [same])
          have plus : char ≠ '+' := fun same => noPlus rest (by rw [same])
          simpa [NumberScan.goesOn, splitSign, minus, plus] using ends

theorem mem_integersFrom_whole {text : List Char}
    (ends : continuesNumber (text.dropWhile isDigit) = false) :
    digits + (text.takeWhile isDigit).length ∈
      integersFrom ['"'] .code (.whole digits) text := by
  induction text generalizing digits with
  | nil => simp [integersFrom, NumberScan.ended, NumberScan.integer?]
  | cons char rest ih =>
      cases digit : isDigit char with
      | true =>
          have noQuote : char ≠ '"' := by
            rintro rfl
            cases digit
          rw [List.dropWhile_cons_of_pos digit] at ends
          have later := integersFrom_plain noQuote (.whole digits) rest
          rw [NumberScan.advance, if_pos digit] at later
          have found := later (@ih (digits + 1) ends)
          rw [List.takeWhile_cons_of_pos digit, List.length_cons]
          rwa [Nat.add_right_comm] at found
      | false =>
          rw [List.dropWhile_cons_of_neg (by simp [digit])] at ends
          rw [List.takeWhile_cons_of_neg (by simp [digit]), List.length_nil,
            Nat.add_zero]
          simp only [continuesNumber, digit, Bool.false_or, Bool.or_eq_false_iff,
            Bool.and_eq_false_imp, beq_iff_eq, Bool.or_eq_true] at ends
          by_cases point : char = '.'
          · rw [point]
            exact mem_integersFrom_point (ends.1 point)
          · by_cases marks : char = 'e' ∨ char = 'E'
            · exact mem_integersFrom_mark marks (ends.2 marks)
            · refine mem_integersFrom_ended _ rfl ?_
              rw [not_or] at marks
              simp [NumberScan.goesOn, digit, point, marks]

theorem any_head?_of_takeWhile {test : Char → Bool} {text : List Char}
    (none : (text.takeWhile test).isEmpty = true) : text.head?.any test = false := by
  cases text with
  | nil => rfl
  | cons char rest =>
      cases inside : test char with
      | true => simp [inside] at none
      | false => exact inside

/-- No more of a number follows the digits of an integer token. -/
theorem continuesNumber_of_parts {text : List Char}
    (first : Stops isDigit text)
    (fraction : (fractionPart text).1.isEmpty = true)
    (exponent : (exponentPart (fractionPart text).2).1.isNone = true) :
    continuesNumber text = false := by
  cases text with
  | nil => rfl
  | cons char rest =>
      have digit : isDigit char = false := first char (by simp)
      by_cases point : char = '.'
      · rw [point, fractionPart] at fraction
        have noDigits : (rest.takeWhile isDigit).isEmpty = true := by
          split at fraction
          next none => exact none
          next => exact fraction
        rw [point] at digit ⊢
        simp [continuesNumber, digit, any_head?_of_takeWhile noDigits]
      · by_cases marks : char = 'e' ∨ char = 'E'
        · have whole : fractionPart (char :: rest) = ([], char :: rest) := by
            simp [fractionPart, point]
          rw [whole, exponentPart, if_pos marks] at exponent
          have noDigits : ((splitSign rest).2.takeWhile isDigit).isEmpty = true := by
            simp only at exponent
            split at exponent
            next none => exact none
            next => cases exponent
          simp [continuesNumber, digit, point, any_head?_of_takeWhile noDigits]
        · rw [not_or] at marks
          simp [continuesNumber, digit, point, marks]

theorem mem_integersFrom_numberToken? {negative : Bool} {text rest : List Char}
    (found : numberToken? negative text = some (.longInteger digits, rest))
    {scan : NumberScan} (begins : scan = .apart ∨ scan = .minus) :
    integerDigitLimit < digits ∧ digits ∈ integersFrom ['"'] .code scan text := by
  unfold numberToken? at found
  split at found
  next => cases found
  next whole afterWhole wholeFound =>
    simp only at found
    split at found
    next parts =>
      split at found
      next long =>
        cases found
        refine ⟨long, ?_⟩
        rw [Bool.and_eq_true] at parts
        cases text with
        | nil => cases wholeFound
        | cons char text =>
            rw [wholePart?] at wholeFound
            split at wholeFound
            next =>
              cases wholeFound
              exact absurd long (by decide)
            next =>
              split at wholeFound
              next digit =>
                cases wholeFound
                have noQuote : char ≠ '"' := by
                  rintro rfl
                  cases digit
                have advanced : scan.advance char = .whole 1 := by
                  rcases begins with rfl | rfl <;>
                    rw [NumberScan.advance, if_pos digit]
                apply integersFrom_plain noQuote
                rw [advanced, List.length_cons, Nat.add_comm]
                exact mem_integersFrom_whole (continuesNumber_of_parts
                  (stops_dropWhile isDigit text) parts.1 parts.2)
              next => cases wholeFound
      next => cases found
    next => cases found

theorem mem_integersFrom_nextToken {char : Char} {rest : List Char}
    (found : (nextToken char rest).1 = .longInteger digits) :
    integerDigitLimit < digits ∧
      digits ∈ integersFrom ['"'] .code .apart (char :: rest) := by
  have named {name : String} {scalar : Scalar} :
      (nameToken name scalar rest).1 ≠ .longInteger digits := by
    unfold nameToken
    split <;> exact fun same => by cases same
  have number {negative : Bool} {text : List Char} (scan : NumberScan)
      (begins : scan = .apart ∨ scan = .minus)
      (found : ((numberToken? negative text).getD (.unknown, [])).1 =
        .longInteger digits) :
      integerDigitLimit < digits ∧ digits ∈ integersFrom ['"'] .code scan text := by
    cases read : numberToken? negative text with
    | none => rw [read] at found; cases found
    | some pair =>
        obtain ⟨token, after⟩ := pair
        rw [read, Option.getD_some] at found
        obtain rfl : token = .longInteger digits := found
        exact mem_integersFrom_numberToken? read begins
  unfold nextToken at found
  split at found
  next => cases found
  next => cases found
  next => cases found
  next => cases found
  next => cases found
  next => cases found
  next => split at found <;> cases found
  next => exact absurd found named
  next => exact absurd found named
  next => exact absurd found named
  next => exact absurd found named
  next => exact absurd found named
  next =>
    split at found
    next => cases found
    next =>
      obtain ⟨long, member⟩ := number .minus (.inr rfl) found
      exact ⟨long, integersFrom_plain (by decide) .apart rest member⟩
  next => exact number .apart (.inl rfl) found

/-- At the end of a text no integer is read. -/
theorem State.run_nil_ne (state : State) :
    state.run [] ≠ .error (.longInteger digits) := by
  unfold State.run
  split
  next => exact fun same => by cases same
  next => exact fun same => by cases same
  next same => cases same

/-- An integer of too many digits that stops the reader is found. -/
theorem mem_integersFrom_run {state : State} {scan : NumberScan} {text : List Char}
    (apart : state.awaitsValue = true → scan = .apart)
    (stopped : state.run (lexemes text) = .error (.longInteger digits)) :
    integerDigitLimit < digits ∧ digits ∈ integersFrom ['"'] .code scan text := by
  fun_induction lexemes text generalizing state scan with
  | case1 => exact absurd stopped state.run_nil_ne
  | case2 char rest separates ih =>
      have noQuote : char ≠ '"' := by
        rintro rfl
        cases separates
      have blank : scan = .apart → scan.advance char = .apart := by
        rintro rfl
        rcases isSeparator_iff.mp separates with rfl | rfl | rfl | rfl <;> rfl
      have found := ih (fun awaits => blank (apart awaits)) stopped
      exact ⟨found.1, integersFrom_plain noQuote scan rest found.2⟩
  | case3 char rest visible ih =>
      rw [State.run] at stopped
      split at stopped
      next next stepped =>
        cases awaits : next.awaitsValue with
        | true =>
            obtain ⟨sign, remains⟩ :=
              nextToken_of_introduces ((steps_of_eq_ok stepped).introduces awaits)
            have noQuote : char ≠ '"' := by
              rintro rfl
              exact absurd sign (by decide)
            have advanced : scan.advance char = .apart := by
              simp only [List.mem_cons, List.not_mem_nil, or_false] at sign
              rcases sign with rfl | rfl | rfl <;> cases scan <;> rfl
            have found := ih (fun _ => advanced) stopped
            rw [remains] at found
            exact ⟨found.1, integersFrom_plain noQuote scan rest found.2⟩
        | false =>
            rcases passes_nextToken char rest with nothing | passes
            · rw [nothing, lexemes] at stopped
              exact absurd stopped next.run_nil_ne
            · obtain ⟨later, subset⟩ := passes.integersFrom_subset scan
              have found := @ih next later (fun same => by simp [awaits] at same) stopped
              exact ⟨found.1, subset found.2⟩
      next obstacle stepped =>
        cases stopped
        obtain ⟨awaits, token⟩ := awaitsValue_of_step stepped
        rw [apart awaits]
        exact mem_integersFrom_nextToken token

/-- An integer of too many digits that stops the reader is an integer of the
text. -/
theorem mem_integersFrom_read {text : List Char}
    (stopped : read text = .error (.longInteger digits)) :
    integerDigitLimit < digits ∧ digits ∈ integersFrom ['"'] .code .apart text :=
  mem_integersFrom_run (fun _ => rfl) (run_of_longInteger stopped)

end Long

end TwinSchema.Json
