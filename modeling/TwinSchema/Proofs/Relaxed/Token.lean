import TwinSchema.Proofs.Relaxed.Repair

/-!
# Tokens of repaired documents

A repaired piece is read as the token that it means, whatever follows it: a
text up to its closing quote, and a word up to the end of its letters.
-/

namespace TwinSchema.Relaxed

open Json

/-- No character is half a surrogate pair. -/
theorem not_surrogate (char : Char) :
    isHighSurrogate char.toNat = false ∧ isLowSurrogate char.toNat = false := by
  have valid : char.toNat < 0xD800 ∨ 0xDFFF < char.toNat := by
    rcases char.valid with low | high
    · exact .inl low
    · exact .inr high.1
  simp only [isHighSurrogate, isLowSurrogate, Bool.and_eq_false_iff,
    decide_eq_false_iff_not]
  omega

theorem joinUnits_cons {unit : Nat} (notHigh : isHighSurrogate unit = false)
    (rest : List Nat) :
    joinUnits (unit :: rest) = unitChar unit :: joinUnits rest := by
  cases rest with
  | nil => rfl
  | cons next rest => simp [joinUnits, notHigh]

theorem unitChar_of_not_surrogate {unit : Nat}
    (notHigh : isHighSurrogate unit = false)
    (notLow : isLowSurrogate unit = false) : unitChar unit = Char.ofNat unit := by
  simp [unitChar, notHigh, notLow]

theorem joinUnits_char (char : Char) (rest : List Nat) :
    joinUnits (char.toNat :: rest) = char :: joinUnits rest := by
  obtain ⟨notHigh, notLow⟩ := not_surrogate char
  rw [joinUnits_cons notHigh, unitChar_of_not_surrogate notHigh notLow,
    Char.ofNat_toNat]

namespace Letter

/-- The units of a spelled character. -/
def units : Letter → List Nat
  | .unit first second third fourth =>
      [(codeUnit? first second third fourth).getD 0]
  | .pair first second third fourth fifth sixth seventh eighth =>
      [(codeUnit? first second third fourth).getD 0,
        (codeUnit? fifth sixth seventh eighth).getD 0]
  | letter => [letter.char.toNat]

/-- The units of a spelled character make the character meant. -/
theorem joinUnits_units {quote : Char} {letter : Letter}
    (allowed : letter.Allowed quote) (rest : List Nat) :
    joinUnits (letter.units ++ rest) = letter.char :: joinUnits rest := by
  cases letter with
  | unit first second third fourth =>
      obtain ⟨unit, read, notHigh, notLow⟩ := allowed
      simp only [units, char, read, Option.getD_some, List.cons_append,
        List.nil_append]
      rw [joinUnits_cons notHigh, unitChar_of_not_surrogate notHigh notLow]
  | pair first second third fourth fifth sixth seventh eighth =>
      obtain ⟨high, low, readHigh, readLow, isHigh, isLow⟩ := allowed
      simp [units, char, readHigh, readLow, joinUnits, isHigh, isLow]
  | plain char => exact joinUnits_char _ rest
  | short letter => exact joinUnits_char _ rest
  | apostrophe => exact joinUnits_char _ rest

theorem readUnits_text {letter : Letter} (allowed : letter.Allowed '"')
    {whole rest after : List Char} {others : List Nat}
    (read : readUnits whole rest = .ok (others, after)) :
    readUnits whole (letter.text ++ rest) =
      .ok (letter.units ++ others, after) := by
  have goesOn : rest ≠ [] := by
    rintro rfl
    simp [readUnits] at read
  have readUnit : ∀ {first second third fourth : Char} {unit : Nat}
      {more : List Char} {others : List Nat},
      codeUnit? first second third fourth = some unit →
      more ≠ [] → readUnits whole more = .ok (others, after) →
      readUnits whole ('\\' :: 'u' :: first :: second :: third :: fourth ::
        more) = .ok (unit :: others, after) := by
    intro first second third fourth unit more others found nonempty readMore
    rw [readUnits.eq_def]
    simp [found, nonempty, readMore, consUnit]
  cases letter with
  | plain char =>
      obtain ⟨visible, notEscape, notQuote⟩ := allowed
      simp only [text, units, List.singleton_append]
      rw [readUnits.eq_def]
      simp only [notQuote, notEscape, if_false]
      rw [if_neg (by omega), read]
      rfl
  | short letter =>
      obtain ⟨meant, known⟩ := Option.isSome_iff_exists.mp allowed
      have notUnit : letter ≠ 'u' := by
        rintro rfl
        simp [shortEscape?] at known
      simp only [text, units, char, known, List.cons_append, List.nil_append]
      rw [readUnits.eq_def]
      simp [known, read, consUnit]
  | apostrophe => simp [Allowed] at allowed
  | unit first second third fourth =>
      obtain ⟨unit, found, -⟩ := allowed
      simp only [text, units, found, List.cons_append, List.nil_append]
      exact readUnit found goesOn read
  | pair first second third fourth fifth sixth seventh eighth =>
      obtain ⟨high, low, foundHigh, foundLow, -⟩ := allowed
      simp only [text, units, foundHigh, foundLow, List.cons_append,
        List.nil_append]
      exact readUnit foundHigh (by simp) (readUnit foundLow goesOn read)

end Letter

theorem readUnits_letters {letters : List Letter}
    (allowed : ∀ letter ∈ letters, letter.Allowed '"')
    (whole rest : List Char) :
    readUnits whole (letters.flatMap Letter.text ++ '"' :: rest) =
      .ok (letters.flatMap Letter.units, rest) := by
  induction letters with
  | nil =>
      rw [List.flatMap_nil, List.nil_append, readUnits.eq_def]
      simp
  | cons letter letters ih =>
      rw [List.flatMap_cons, List.append_assoc, List.flatMap_cons]
      exact Letter.readUnits_text (allowed letter List.mem_cons_self)
        (ih fun next member => allowed next (List.mem_cons_of_mem letter member))

theorem joinUnits_letters {quote : Char} {letters : List Letter}
    (allowed : ∀ letter ∈ letters, letter.Allowed quote) :
    joinUnits (letters.flatMap Letter.units) = letters.map Letter.char := by
  induction letters with
  | nil => rfl
  | cons letter letters ih =>
      rw [List.flatMap_cons, List.map_cons,
        Letter.joinUnits_units (allowed letter List.mem_cons_self),
        ih fun next member => allowed next (List.mem_cons_of_mem letter member)]

/-- A text in double quotes is read as the text meant. -/
theorem nextToken_literal (literal : Literal) (rest : List Char) :
    nextToken '"' (literal.doubled.letters.flatMap Letter.text ++ '"' :: rest) =
      (.text literal.value, rest) := by
  have allowed := literal.doubled.allowed
  rw [← literal.value_doubled, Literal.value, ← joinUnits_letters allowed]
  simp only [nextToken]
  rw [readUnits_letters allowed]

theorem not_isDigit_of_stops {rest : List Char}
    (stops : Text.Stops isWordLetter rest) : Text.Stops isDigit rest := by
  intro char head
  cases digit : isDigit char with
  | false => rfl
  | true =>
      rw [← stops char head, isWordLetter_of_isDigit digit]

theorem ne_of_stops {rest : List Char} {char : Char}
    (stops : Text.Stops isWordLetter rest) (letter : isWordLetter char = true)
    (others : List Char) : rest ≠ char :: others := by
  rintro rfl
  have := stops char (by simp)
  rw [letter] at this
  cases this

theorem exponentPart_power (power : Power) {rest : List Char}
    (stops : Text.Stops isWordLetter rest) :
    exponentPart (power.text ++ rest) = (some power.value, rest) := by
  have digits := not_isDigit_of_stops stops
  have taken := Text.takeWhile_run power.decimal digits
  have dropped := Text.dropWhile_run power.decimal digits
  have unsigned : splitSign (power.digits ++ rest) =
      (false, power.digits ++ rest) := by
    obtain ⟨char, others, same⟩ := List.exists_cons_of_ne_nil power.nonempty
    have digit := power.decimal char (by simp [same])
    rw [same, List.cons_append]
    unfold splitSign
    split
    · rename_i other equal
      rw [List.cons.injEq] at equal
      rw [equal.1] at digit
      cases digit
    · rename_i other equal
      rw [List.cons.injEq] at equal
      rw [equal.1] at digit
      cases digit
    · rfl
  simp only [Power.text, List.cons_append, List.append_assoc, exponentPart]
  rw [if_pos power.marked]
  cases sign : power.sign with
  | none =>
      simp [unsigned, taken, dropped, power.nonempty, Power.value, sign]
  | some char =>
      rcases power.signed char sign with rfl | rfl <;>
        simp [splitSign, taken, dropped, power.nonempty, Power.value, sign]

theorem exponentPart_none {rest : List Char}
    (stops : Text.Stops isWordLetter rest) :
    exponentPart rest = (none, rest) := by
  cases rest with
  | nil => rfl
  | cons char rest =>
      have small : char ≠ 'e' := fun same =>
        ne_of_stops stops (by decide : isWordLetter 'e' = true) rest (by rw [same])
      have capital : char ≠ 'E' := fun same =>
        ne_of_stops stops (by decide : isWordLetter 'E' = true) rest (by rw [same])
      simp [exponentPart, small, capital]

theorem exponentPart_powerText (numeral : Numeral) {rest : List Char}
    (stops : Text.Stops isWordLetter rest) :
    exponentPart (numeral.powerText ++ rest) =
      (numeral.power.map Power.value, rest) := by
  rw [Numeral.powerText]
  cases numeral.power with
  | none => exact exponentPart_none stops
  | some power => exact exponentPart_power power stops

/-- What follows a fraction is neither a digit nor a point. -/
theorem stops_powerText (numeral : Numeral) {rest : List Char}
    (stops : Text.Stops isWordLetter rest) :
    Text.Stops isDigit (numeral.powerText ++ rest) ∧
      ∀ others, numeral.powerText ++ rest ≠ '.' :: others := by
  rw [Numeral.powerText]
  cases numeral.power with
  | none =>
      exact ⟨not_isDigit_of_stops stops,
        ne_of_stops stops (by decide)⟩
  | some power =>
      simp only [Power.text, List.cons_append]
      rcases power.marked with same | same <;> rw [same] <;>
        exact ⟨Text.stops_cons (by decide), by simp⟩

theorem fractionPart_fractionText (numeral : Numeral) {rest : List Char}
    (noDigit : Text.Stops isDigit rest) (noPoint : ∀ others, rest ≠ '.' :: others) :
    fractionPart (numeral.fractionText ++ rest) = (numeral.fraction, rest) := by
  rw [Numeral.fractionText]
  cases fraction : numeral.fraction with
  | nil =>
      simp only [List.isEmpty_nil, if_true, List.nil_append]
      unfold fractionPart
      split
      · exact absurd rfl (noPoint _)
      · rfl
  | cons digit digits =>
      have decimal := numeral.fractionDecimal
      rw [fraction] at decimal
      simp only [List.isEmpty_cons, Bool.false_eq_true, if_false,
        List.cons_append, fractionPart]
      rw [← List.cons_append, Text.takeWhile_run decimal noDigit,
        Text.dropWhile_run decimal noDigit]
      simp

theorem wholePart?_whole (numeral : Numeral) {rest : List Char}
    (noDigit : Text.Stops isDigit rest) :
    wholePart? (numeral.whole ++ rest) = some (numeral.whole, rest) := by
  obtain ⟨char, others, whole⟩ := List.exists_cons_of_ne_nil numeral.nonempty
  have decimal := numeral.wholeDecimal
  have canonical := numeral.canonical
  rw [whole] at decimal canonical ⊢
  rw [List.cons_append, wholePart?]
  by_cases zero : char = '0'
  · have alone := canonical (by simp [zero])
    rw [if_pos zero]
    simp_all
  · have digit := decimal char List.mem_cons_self
    have within := fun next member => decimal next (List.mem_cons_of_mem char member)
    rw [if_neg zero, if_pos digit, Text.takeWhile_run within noDigit,
      Text.dropWhile_run within noDigit]

/-- A number is read as the value that its parts denote. -/
theorem numberToken?_unsigned (numeral : Numeral) {rest : List Char}
    (stops : Text.Stops isWordLetter rest) :
    numberToken? numeral.negative (numeral.unsigned ++ rest) =
      some (.scalar numeral.value, rest) := by
  obtain ⟨noDigit, noPoint⟩ := stops_powerText numeral stops
  have afterWhole : Text.Stops isDigit
      (numeral.fractionText ++ (numeral.powerText ++ rest)) := by
    rw [Numeral.fractionText]
    split
    · exact noDigit
    · exact Text.stops_cons (by decide)
  have limited := numeral.limited
  simp only [numberToken?, Numeral.unsigned, List.append_assoc,
    wholePart?_whole numeral afterWhole,
    fractionPart_fractionText numeral noDigit noPoint,
    exponentPart_powerText numeral stops, Numeral.value, Option.isNone_map]
  split
  · rename_i integer
    simp only [Bool.and_eq_true, List.isEmpty_iff, Option.isNone_iff_eq_none]
      at integer
    rw [if_neg (Nat.not_lt.mpr (limited integer.1 integer.2))]
  · rfl

theorem dropWord?_append (word rest : List Char) :
    Text.dropWord? word (word ++ rest) = some rest := by
  induction word with
  | nil => rfl
  | cons char word ih => simp [Text.dropWord?, ih]

theorem nameToken_append (name : String) (scalar : Scalar) (rest : List Char) :
    nameToken name scalar (name.toList ++ rest) = (.scalar scalar, rest) := by
  simp [nameToken, dropWord?_append]

theorem nextToken_digit {char : Char} (digit : isDigit char = true)
    (rest : List Char) :
    nextToken char rest =
      (numberToken? false (char :: rest)).getD (.unknown, []) := by
  unfold nextToken
  split <;> first | rfl | cases digit

theorem nextToken_minus {rest : List Char}
    (number : ∀ others, rest ≠ 'I' :: others) :
    nextToken '-' rest = (numberToken? true rest).getD (.unknown, []) := by
  have noName : Text.dropWord? "Infinity".toList rest = none := by
    cases rest with
    | nil => rfl
    | cons char rest =>
        have different : char ≠ 'I' := fun same => number rest (by rw [same])
        simp [Text.dropWord?, different]
  simp only [nextToken, noName]

theorem exists_unsigned (numeral : Numeral) :
    ∃ char rest, numeral.unsigned = char :: rest ∧ isDigit char = true := by
  obtain ⟨char, others, whole⟩ := List.exists_cons_of_ne_nil numeral.nonempty
  have digit := numeral.wholeDecimal char (by simp [whole])
  exact ⟨char, others ++ (numeral.fractionText ++ numeral.powerText),
    by simp [Numeral.unsigned, whole], digit⟩

/-- A word is read as the value meant, up to the end of its letters. -/
theorem nextToken_word (word : Word) {rest : List Char}
    (stops : Text.Stops isWordLetter rest) :
    ∃ char others, word.text = char :: others ∧ isSeparator char = false ∧
      nextToken char (others ++ rest) = (.scalar word.value, rest) := by
  cases word with
  | null =>
      exact ⟨'n', "ull".toList, rfl, rfl,
        nameToken_append "ull" .null rest⟩
  | true =>
      exact ⟨'t', "rue".toList, rfl, rfl,
        nameToken_append "rue" (.bool true) rest⟩
  | false =>
      exact ⟨'f', "alse".toList, rfl, rfl,
        nameToken_append "alse" (.bool false) rest⟩
  | nan =>
      exact ⟨'N', "aN".toList, rfl, rfl,
        nameToken_append "aN" (.float .nan) rest⟩
  | infinity =>
      exact ⟨'I', "nfinity".toList, rfl, rfl,
        nameToken_append "nfinity" (.float (.infinite false)) rest⟩
  | negativeInfinity =>
      refine ⟨'-', "Infinity".toList, rfl, rfl, ?_⟩
      simp only [nextToken, dropWord?_append]
      rfl
  | number numeral =>
      have read := numberToken?_unsigned numeral stops
      obtain ⟨char, others, unsigned, digit⟩ := exists_unsigned numeral
      rw [Word.text_number, Numeral.text]
      cases sign : numeral.negative with
      | true =>
          rw [sign] at read
          refine ⟨'-', numeral.unsigned, by simp, rfl, ?_⟩
          rw [nextToken_minus, read]
          · rfl
          · intro tail same
            rw [unsigned, List.cons_append, List.cons.injEq] at same
            rw [same.1] at digit
            cases digit
      | false =>
          rw [sign, unsigned] at read
          refine ⟨char, others, by simp [unsigned], ?_, ?_⟩
          · cases separates : isSeparator char with
            | false => rfl
            | true =>
                rcases isSeparator_iff.mp separates with rfl | rfl | rfl | rfl <;> cases digit
          · rw [nextToken_digit digit, ← List.cons_append, read]
            rfl

theorem lexemes_blanks {blanks : List Char}
    (separates : ∀ char ∈ blanks, isSeparator char = true) (rest : List Char) :
    lexemes (blanks ++ rest) = lexemes rest := by
  induction blanks with
  | nil => rfl
  | cons char blanks ih =>
      rw [List.cons_append, lexemes, if_pos (separates char List.mem_cons_self),
        ih fun next member => separates next (List.mem_cons_of_mem char member)]

theorem lexemes_cons {char : Char} (visible : isSeparator char = false)
    (rest : List Char) :
    lexemes (char :: rest) =
      ⟨(nextToken char rest).1, char :: rest⟩ ::
        lexemes (nextToken char rest).2 := by
  rw [lexemes, if_neg (by simp [visible])]

def Mark.token : Mark → Token
  | .openRecord => .openRecord
  | .closeRecord => .closeRecord
  | .openList => .openList
  | .closeList => .closeList
  | .comma => .comma
  | .colon => .colon

theorem lexemes_mark (sign : Mark) (rest : List Char) :
    lexemes (sign.char :: rest) =
      ⟨sign.token, sign.char :: rest⟩ :: lexemes rest := by
  rw [lexemes_cons (by cases sign <;> decide)]
  cases sign <;> rfl

theorem lexemes_literal (literal : Literal) (rest : List Char) :
    lexemes (literal.doubled.text ++ rest) =
      ⟨.text literal.value, literal.doubled.text ++ rest⟩ :: lexemes rest := by
  have read := nextToken_literal literal rest
  simp only [Literal.text, List.cons_append, List.append_assoc, List.nil_append]
  rw [show literal.doubled.quote = '"' from rfl, lexemes_cons (by decide), read]

theorem lexemes_word (word : Word) {rest : List Char}
    (stops : Text.Stops isWordLetter rest) :
    lexemes (word.text ++ rest) =
      ⟨.scalar word.value, word.text ++ rest⟩ :: lexemes rest := by
  obtain ⟨char, others, same, visible, read⟩ := nextToken_word word stops
  rw [same, List.cons_append, lexemes_cons visible, read]

end TwinSchema.Relaxed
