import TwinSchema.Proofs.Relaxed.Spelling
import TwinSchema.Proofs.Text.Literal
import TwinSchema.Relaxed.Quote

/-!
# Quoted texts in double quotes

Turning apostrophes into double quotes respells the letters of a text and keeps
what they mean, and strict JSON reads the respelled text as that meaning.
-/

namespace TwinSchema.Relaxed

open Json

section Steps

variable {char : Char} (rest : List Char)

theorem requote_single_plain (notEscape : char ≠ '\\') (notQuote : char ≠ '"')
    (notApostrophe : char ≠ '\'') :
    requote .single (char :: rest) = char :: requote .single rest := by
  rw [requote.eq_def]
  simp [notEscape, notQuote, notApostrophe]

theorem requote_single_escape (notApostrophe : char ≠ '\'') :
    requote .single ('\\' :: char :: rest) =
      '\\' :: char :: requote .single rest := by
  rw [requote.eq_def]
  simp

theorem requote_single_apostrophe :
    requote .single ('\\' :: '\'' :: rest) = '\'' :: requote .single rest :=
  rfl

theorem requote_single_quote :
    requote .single ('"' :: rest) = '\\' :: '"' :: requote .single rest := by
  rw [requote.eq_def]
  simp

theorem requote_single_close :
    requote .single ('\'' :: rest) = '"' :: requote .outside rest := by
  rw [requote.eq_def]
  simp

end Steps

/-- A character that a scan for quotes passes over. -/
def Letter.Passed (char : Char) : Prop := char ≠ '\\' ∧ char ≠ '"' ∧ char ≠ '\''

/-- A scan stands in a literal that a quote ends. -/
inductive Quoting.Within : Quoting → (quote : Char) → Prop where
  | double : Within .double '"'
  | single : Within .single '\''

section Within

variable {quoting : Quoting} {quote char : Char} {chars : List Char}

theorem exists_within (quoted : quote = '"' ∨ quote = '\'') :
    ∃ quoting : Quoting, quoting.Within quote := by
  rcases quoted with rfl | rfl
  · exact ⟨.double, .double⟩
  · exact ⟨.single, .single⟩

theorem requote_open (within : quoting.Within quote) (rest : List Char) :
    requote .outside (quote :: rest) = '"' :: requote quoting rest := by
  cases within with
  | double => rw [requote, if_pos rfl]
  | single => rw [requote, if_neg (by decide), if_pos rfl]

theorem requote_close (within : quoting.Within quote) (rest : List Char) :
    requote quoting (quote :: rest) = '"' :: requote .outside rest := by
  cases within with
  | double => exact requote_double_close rest
  | single => exact requote_single_close rest

/-- Only an apostrophe is respelled behind a backslash. -/
theorem requote_escape (within : quoting.Within quote) (notApostrophe : char ≠ '\'')
    (rest : List Char) :
    requote quoting ('\\' :: char :: rest) = '\\' :: char :: requote quoting rest := by
  cases within with
  | double => exact requote_double_escape rest
  | single => exact requote_single_escape rest notApostrophe

theorem requote_passed (within : quoting.Within quote)
    (passed : ∀ char ∈ chars, Letter.Passed char) (rest : List Char) :
    requote quoting (chars ++ rest) = chars ++ requote quoting rest := by
  induction chars with
  | nil => rfl
  | cons char chars ih =>
      obtain ⟨⟨notEscape, notQuote, notApostrophe⟩, others⟩ := List.forall_mem_cons.mp passed
      have kept : requote quoting (char :: (chars ++ rest)) =
          char :: requote quoting (chars ++ rest) := by
        cases within with
        | double => exact requote_double_plain _ notEscape notQuote
        | single => exact requote_single_plain _ notEscape notQuote notApostrophe
      rw [List.cons_append, kept, ih others, List.cons_append]

end Within

/-- The spelling of a character between double quotes. -/
def Letter.doubled : Letter → Letter
  | .apostrophe => .plain '\''
  | .plain char => if char = '"' then .short '"' else .plain char
  | letter => letter

namespace Letter

@[simp] theorem char_doubled (letter : Letter) :
    letter.doubled.char = letter.char := by
  cases letter with
  | plain char =>
      by_cases quote : char = '"'
      · simp [doubled, quote, Letter.char, shortEscape?]
      · simp [doubled, quote]
  | _ => rfl

/-- Every spelled character may stand respelled between double quotes. -/
theorem allowed_doubled {quote : Char} {letter : Letter}
    (allowed : letter.Allowed quote) : letter.doubled.Allowed '"' := by
  cases letter with
  | plain char =>
      by_cases same : char = '"'
      · simp [doubled, same, Allowed, shortEscape?]
      · simp only [doubled, same, if_false]
        exact ⟨allowed.1, allowed.2.1, same⟩
  | apostrophe => simp only [doubled, Allowed]; decide
  | short letter => exact allowed
  | unit first second third fourth => exact allowed
  | pair first second third fourth fifth sixth seventh eighth => exact allowed

/-- Between double quotes nothing has to be respelled. -/
theorem doubled_of_allowed {letter : Letter} (allowed : letter.Allowed '"') :
    letter.doubled = letter := by
  cases letter with
  | plain char => simp [doubled, allowed.2.2]
  | apostrophe => simp [Allowed] at allowed
  | _ => rfl

theorem short_ne_apostrophe {letter : Char}
    (known : (shortEscape? letter).isSome) : letter ≠ '\'' := by
  rintro rfl
  simp [shortEscape?] at known

theorem passed_of_hexDigit {char : Char} {value : Nat}
    (digit : hexDigit? char = some value) : Passed char := by
  refine ⟨?_, ?_, ?_⟩ <;>
  · rintro rfl
    simp [hexDigit?] at digit

/-- A scan for quotes passes over four hexadecimal digits. -/
theorem passed_of_codeUnit {first second third fourth : Char} {unit : Nat}
    (read : codeUnit? first second third fourth = some unit) :
    ∀ char ∈ [first, second, third, fourth], Passed char := by
  simp only [codeUnit?, Option.bind_eq_bind, Option.bind_eq_some_iff] at read
  obtain ⟨a, ha, b, hb, c, hc, d, hd, -⟩ := read
  simp only [List.forall_mem_cons, List.not_mem_nil, false_imp_iff, forall_const,
    and_true]
  exact ⟨passed_of_hexDigit ha, passed_of_hexDigit hb, passed_of_hexDigit hc,
    passed_of_hexDigit hd⟩

/-- A group of four hexadecimal digits after a backslash stays as it is. -/
theorem requote_unit {quoting : Quoting} {quote : Char} (within : quoting.Within quote)
    {first second third fourth : Char} {unit : Nat}
    (read : codeUnit? first second third fourth = some unit) (rest : List Char) :
    Relaxed.requote quoting ('\\' :: 'u' :: first :: second :: third :: fourth :: rest) =
      '\\' :: 'u' :: first :: second :: third :: fourth :: Relaxed.requote quoting rest := by
  rw [requote_escape within (by decide)]
  congr 2
  exact requote_passed within (passed_of_codeUnit read) rest

/-- A letter after a backslash is one character, and the digits of a group are
neither quotes nor backslashes. -/
theorem literalBody_text {quote : Char} {letter : Letter}
    (quoted : quote = '"' ∨ quote = '\'') (allowed : letter.Allowed quote) :
    Text.LiteralBody quote letter.text := by
  have digits : ∀ {chars : List Char}, (∀ char ∈ chars, Passed char) →
      Text.LiteralBody quote chars := by
    intro chars passed
    refine .of_plain fun char member => ⟨(passed char member).1, ?_⟩
    rcases quoted with rfl | rfl
    · exact (passed char member).2.1
    · exact (passed char member).2.2
  cases letter with
  | plain char => exact .plain allowed.2.1 allowed.2.2 .nil
  | short letter => exact .escaped .nil
  | apostrophe => exact .escaped .nil
  | unit first second third fourth =>
      obtain ⟨unit, read, -⟩ := allowed
      exact .escaped (digits (passed_of_codeUnit read))
  | pair first second third fourth fifth sixth seventh eighth =>
      obtain ⟨high, low, readHigh, readLow, -⟩ := allowed
      have firstUnit : Text.LiteralBody quote
          ['\\', 'u', first, second, third, fourth] :=
        .escaped (digits (passed_of_codeUnit readHigh))
      exact firstUnit.append (.escaped (digits (passed_of_codeUnit readLow)))

/-- A plain character is respelled where it is a double quote between apostrophes. -/
theorem requote_plain {quoting : Quoting} {quote char : Char} (within : quoting.Within quote)
    (allowed : (plain char).Allowed quote) (rest : List Char) :
    Relaxed.requote quoting (char :: rest) =
      (plain char).doubled.text ++ Relaxed.requote quoting rest := by
  obtain ⟨-, notEscape, notQuote⟩ := allowed
  cases within with
  | double => simpa [notQuote, doubled, text] using requote_double_plain rest notEscape notQuote
  | single =>
      by_cases quote : char = '"'
      · simpa [quote, doubled, text] using requote_single_quote rest
      · simpa [quote, doubled, text] using requote_single_plain rest notEscape quote notQuote

/-- Between either quotes a letter comes out as it is spelled between double quotes. -/
theorem requote {quoting : Quoting} {quote : Char} (within : quoting.Within quote)
    {letter : Letter} (allowed : letter.Allowed quote) (rest : List Char) :
    Relaxed.requote quoting (letter.text ++ rest) =
      letter.doubled.text ++ Relaxed.requote quoting rest := by
  cases letter with
  | plain char => exact requote_plain within allowed rest
  | short letter => exact requote_escape within (short_ne_apostrophe allowed) rest
  | apostrophe =>
      cases within with
      | double => simp [Allowed] at allowed
      | single => exact requote_single_apostrophe rest
  | unit first second third fourth =>
      obtain ⟨unit, read, -⟩ := allowed
      exact requote_unit within read rest
  | pair first second third fourth fifth sixth seventh eighth =>
      obtain ⟨high, low, readHigh, readLow, -⟩ := allowed
      simp only [text, doubled, List.cons_append, List.nil_append]
      rw [requote_unit within readHigh, requote_unit within readLow]

end Letter

namespace Literal

theorem allowed_doubled (literal : Literal) :
    ∀ letter ∈ literal.letters.map Letter.doubled, letter.Allowed '"' := by
  intro letter member
  obtain ⟨original, within, rfl⟩ := List.mem_map.mp member
  exact Letter.allowed_doubled (literal.allowed original within)

/-- A text between double quotes. -/
def doubled (literal : Literal) : Literal :=
  ofLetters (literal.letters.map Letter.doubled) literal.allowed_doubled

@[simp] theorem value_doubled (literal : Literal) :
    literal.doubled.value = literal.value := by
  simp [value, doubled, Function.comp_def]

end Literal

theorem Literal.text_doubled {literal : Literal} (same : literal.quote = '"') :
    literal.doubled.text = literal.text := by
  obtain ⟨quote, letters, quoted, allowed⟩ := literal
  simp only at same
  subst same
  have kept : letters.map Letter.doubled = letters := by
    conv => rhs; rw [← List.map_id letters]
    exact List.map_congr_left fun letter member =>
      Letter.doubled_of_allowed (allowed letter member)
  simp [doubled, text, kept]

theorem Literal.literalBody (literal : Literal) :
    Text.LiteralBody literal.quote (literal.letters.flatMap Letter.text) := by
  obtain ⟨quote, letters, quoted, allowed⟩ := literal
  simp only
  induction letters with
  | nil => exact .nil
  | cons letter letters ih =>
      rw [List.flatMap_cons]
      exact .append
        (Letter.literalBody_text quoted (allowed letter List.mem_cons_self))
        (ih fun next member => allowed next (List.mem_cons_of_mem letter member))

theorem requote_letters {quoting : Quoting} {quote : Char} (within : quoting.Within quote)
    {letters : List Letter} (allowed : ∀ letter ∈ letters, letter.Allowed quote)
    (rest : List Char) :
    requote quoting (letters.flatMap Letter.text ++ rest) =
      (letters.map Letter.doubled).flatMap Letter.text ++ requote quoting rest := by
  induction letters with
  | nil => rfl
  | cons letter letters ih =>
      obtain ⟨first, others⟩ := List.forall_mem_cons.mp allowed
      simp only [List.flatMap_cons, List.map_cons, List.append_assoc]
      rw [Letter.requote within first, ih others]

theorem Literal.requote_text (literal : Literal) (rest : List Char) :
    requote .outside (literal.text ++ rest) =
      literal.doubled.text ++ requote .outside rest := by
  obtain ⟨quote, letters, quoted, allowed⟩ := literal
  obtain ⟨quoting, within⟩ := exists_within quoted
  simp only [text, doubled, quote_ofLetters, letters_ofLetters, List.cons_append,
    List.append_assoc, List.nil_append]
  rw [requote_open within, requote_letters within allowed, requote_close within]

section Closed

open Text (LiteralBody)

variable {body : List Char}

theorem requote_double_body (inside : LiteralBody '"' body) (rest : List Char) :
    requote .double (body ++ '"' :: rest) = body ++ '"' :: requote .outside rest := by
  induction inside with
  | nil => exact requote_double_close rest
  | plain notEscape notQuote _ ih =>
      rw [List.cons_append, requote_double_plain _ notEscape notQuote, ih, List.cons_append]
  | escaped _ ih =>
      rw [List.cons_append, List.cons_append, requote_double_escape, ih, List.cons_append,
        List.cons_append]

/-- What stands between apostrophes comes out between double quotes. -/
theorem exists_requote_single (inside : LiteralBody '\'' body) :
    ∃ doubled, LiteralBody '"' doubled ∧ ∀ rest,
      requote .single (body ++ '\'' :: rest) = doubled ++ '"' :: requote .outside rest := by
  induction inside with
  | nil => exact ⟨[], .nil, requote_single_close⟩
  | @plain char body notEscape notApostrophe _ ih =>
      obtain ⟨doubled, within, written⟩ := ih
      by_cases notQuote : char = '"'
      · subst notQuote
        refine ⟨'\\' :: '"' :: doubled, .escaped within, fun rest => ?_⟩
        rw [List.cons_append, requote_single_quote, written]
        rfl
      · refine ⟨char :: doubled, .plain notEscape notQuote within, fun rest => ?_⟩
        rw [List.cons_append, requote_single_plain _ notEscape notQuote notApostrophe, written]
        rfl
  | @escaped char body _ ih =>
      obtain ⟨doubled, within, written⟩ := ih
      by_cases apostrophe : char = '\''
      · subst apostrophe
        refine ⟨'\'' :: doubled, .plain (by decide) (by decide) within, fun rest => ?_⟩
        rw [List.cons_append, List.cons_append, requote_single_apostrophe, written]
        rfl
      · refine ⟨'\\' :: char :: doubled, .escaped within, fun rest => ?_⟩
        rw [List.cons_append, List.cons_append, requote_single_escape _ apostrophe, written]
        rfl

/-- A closed literal comes out as one in double quotes. -/
theorem exists_requote {quote : Char} (quoted : quote ∈ Text.documentQuotes)
    (inside : LiteralBody quote body) :
    ∃ doubled, LiteralBody '"' doubled ∧ ∀ rest,
      requote .outside (quote :: (body ++ quote :: rest)) =
        '"' :: (doubled ++ '"' :: requote .outside rest) := by
  simp only [Text.documentQuotes, List.mem_cons, List.not_mem_nil, or_false] at quoted
  rcases quoted with rfl | rfl
  · refine ⟨body, inside, fun rest => ?_⟩
    rw [requote_open .double, requote_double_body inside]
  · obtain ⟨doubled, within, written⟩ := exists_requote_single inside
    refine ⟨doubled, within, fun rest => ?_⟩
    rw [requote_open .single, written]

end Closed

end TwinSchema.Relaxed
