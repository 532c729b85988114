import TwinSchema.Json.Writer
import TwinSchema.Proofs.Relaxed.Decimal
import TwinSchema.Proofs.Relaxed.Reading

/-!
# Written documents are spellings

What is written for a value is one of the ways in which a document may spell it:
texts with their escapes, numbers, and lists and records with their items in
order, whatever blanks stand between them.
-/

namespace TwinSchema.Relaxed

open Json Text

/-- A text that spells a value. -/
def Spells (text : List Char) (value : Value) : Prop :=
  ∃ spelling : Spelling, spelling.text = text ∧ spelling.value = value

def SpellsItems (texts : List (List Char)) (values : List Value) : Prop :=
  ∃ spellings : List Spelling, spellings.map Spelling.text = texts ∧
    spellings.map Spelling.value = values

/-- A quoted name, a colon and a blank, and the spelling of a value. -/
structure Entry where
  name : Literal
  content : Spelling

def Entry.text (entry : Entry) : List Char :=
  entry.name.text ++ ':' :: ' ' :: entry.content.text

def Entry.field (entry : Entry) : String × Value :=
  (entry.name.value, entry.content.value)

def SpellsFields (texts : List (List Char)) (fields : List (String × Value)) :
    Prop :=
  ∃ entries : List Entry, entries.map Entry.text = texts ∧
    entries.map Entry.field = fields

theorem spellsItems_nil : SpellsItems [] [] := ⟨[], rfl, rfl⟩

theorem spellsItems_cons {text : List Char} {texts : List (List Char)}
    {value : Value} {values : List Value} (first : Spells text value)
    (others : SpellsItems texts values) :
    SpellsItems (text :: texts) (value :: values) := by
  obtain ⟨spelling, rfl, rfl⟩ := first
  obtain ⟨spellings, rfl, rfl⟩ := others
  exact ⟨spelling :: spellings, rfl, rfl⟩

theorem spellsFields_nil : SpellsFields [] [] := ⟨[], rfl, rfl⟩

theorem spellsFields_append {texts others : List (List Char)}
    {fields otherFields : List (String × Value)}
    (first : SpellsFields texts fields)
    (second : SpellsFields others otherFields) :
    SpellsFields (texts ++ others) (fields ++ otherFields) := by
  obtain ⟨entries, rfl, rfl⟩ := first
  obtain ⟨more, rfl, rfl⟩ := second
  exact ⟨entries ++ more, List.map_append, List.map_append⟩

/-- What the regular pass makes of a text that spells a value is read as that
value. -/
theorem read_of_spells {text : List Char} {value : Value}
    (spelled : Spells text value) :
    read (normalize (stripComments documentQuotes text)) = .ok value := by
  obtain ⟨spelling, rfl, rfl⟩ := spelled
  have read := read_pieces [] [] spelling
  rw [Gap.pieces_nil, List.nil_append, List.append_nil] at read
  exact read

/-- A text that spells a value is decoded as that value. -/
theorem decode_of_spells {text : List Char} {value : Value}
    (spelled : Spells text value) : decode text = .ok value := by
  obtain ⟨spelling, rfl, rfl⟩ := spelled
  have read := decode_pieces [] [] spelling
  rw [Gap.pieces_nil, List.nil_append, List.append_nil] at read
  exact read

/-- The code unit of four characters. -/
def unitOf? : List Char → Option Nat
  | [first, second, third, fourth] => codeUnit? first second third fourth
  | _ => none

/-- The escape of a control character has four digits, which name it. -/
theorem unitOf?_hexadecimal :
    ∀ code : Fin 0x20, unitOf? (hexadecimal 4 code) = some code.val := by
  decide

/-- Every character may be spelled as it is written. -/
theorem exists_letter (char : Char) :
    ∃ letter : Letter, letter.text = escapeChar char ∧ letter.char = char ∧
      letter.Allowed '"' := by
  by_cases short : char ∈ ['"', '\\', '\n', '\r', '\t', '\x08', '\x0C']
  · simp only [List.mem_cons, List.not_mem_nil, or_false] at short
    rcases short with rfl | rfl | rfl | rfl | rfl | rfl | rfl
    · exact ⟨.short '"', rfl, rfl, rfl⟩
    · exact ⟨.short '\\', rfl, rfl, rfl⟩
    · exact ⟨.short 'n', rfl, rfl, rfl⟩
    · exact ⟨.short 'r', rfl, rfl, rfl⟩
    · exact ⟨.short 't', rfl, rfl, rfl⟩
    · exact ⟨.short 'b', rfl, rfl, rfl⟩
    · exact ⟨.short 'f', rfl, rfl, rfl⟩
  · simp only [List.mem_cons, List.not_mem_nil, or_false, not_or] at short
    by_cases control : char.toNat < 0x20
    · have named := unitOf?_hexadecimal ⟨char.toNat, control⟩
      have written : escapeChar char =
          '\\' :: 'u' :: hexadecimal 4 char.toNat := by
        simp [escapeChar, short, control]
      simp only at named
      unfold unitOf? at named
      split at named
      next first second third fourth digits =>
        refine ⟨.unit first second third fourth, ?_, ?_, char.toNat, named,
          not_surrogate char⟩
        · rw [written, digits]
          rfl
        · simp [Letter.char, named]
      next => cases named
    · refine ⟨.plain char, ?_, rfl, by omega, short.2.1, short.1⟩
      simp [escapeChar, short, control, Letter.text]

/-- Every text may be spelled as it is written. -/
theorem exists_literal (text : String) :
    ∃ literal : Literal, literal.quote = '"' ∧ literal.text = writeText text ∧
      literal.value = text := by
  have spelled : ∀ chars : List Char, ∃ letters : List Letter,
      letters.flatMap Letter.text = chars.flatMap escapeChar ∧
      letters.map Letter.char = chars ∧
      ∀ letter ∈ letters, letter.Allowed '"' := by
    intro chars
    induction chars with
    | nil => exact ⟨[], rfl, rfl, by simp⟩
    | cons char chars ih =>
        obtain ⟨letter, written, meant, allowed⟩ := exists_letter char
        obtain ⟨letters, others, meanings, restAllowed⟩ := ih
        refine ⟨letter :: letters, ?_, ?_, ?_⟩
        · rw [List.flatMap_cons, List.flatMap_cons, written, others]
        · rw [List.map_cons, meant, meanings]
        · exact List.forall_mem_cons.mpr ⟨allowed, restAllowed⟩
  obtain ⟨letters, written, meant, allowed⟩ := spelled text.toList
  refine ⟨⟨'"', letters, .inl rfl, allowed⟩, rfl, ?_, ?_⟩
  · rw [Literal.text, writeText, written]
  · rw [Literal.value, meant, String.ofList_toList]

/-- The digits of an escape are neither equals signs nor line feeds. -/
theorem notMem_hexadecimal :
    ∀ code : Fin 0x20, '=' ∉ hexadecimal 4 code ∧ '\n' ∉ hexadecimal 4 code := by
  decide

/-- A character is written as itself or by an escape without equals signs and
line feeds. -/
theorem escapeChar_cases (char : Char) :
    (escapeChar char = [char] ∧ char ≠ '\n') ∨
      ∃ rest, escapeChar char = '\\' :: rest ∧ '=' ∉ rest ∧ '\n' ∉ rest := by
  by_cases short : char ∈ ['"', '\\', '\n', '\r', '\t', '\x08', '\x0C']
  · simp only [List.mem_cons, List.not_mem_nil, or_false] at short
    rcases short with rfl | rfl | rfl | rfl | rfl | rfl | rfl <;>
      exact .inr ⟨_, rfl, by decide, by decide⟩
  · simp only [List.mem_cons, List.not_mem_nil, or_false, not_or] at short
    by_cases control : char.toNat < 0x20
    · obtain ⟨noSign, noBreak⟩ := notMem_hexadecimal ⟨char.toNat, control⟩
      refine .inr ⟨'u' :: hexadecimal 4 char.toNat, ?_, ?_, ?_⟩
      · simp [escapeChar, short, control]
      · simpa using noSign
      · simpa using noBreak
    · exact .inl ⟨by simp [escapeChar, short, control], short.2.2.1⟩

/-- What is written between the quotes of a text may stand there. -/
theorem literalBody_escaped (text : String) :
    LiteralBody '"' (text.toList.flatMap escapeChar) := by
  obtain ⟨literal, quote, written, -⟩ := exists_literal text
  have inside := literal.literalBody
  rw [Literal.text, quote, writeText] at written
  simp only [List.cons_append, List.cons.injEq, true_and,
    List.append_cancel_right_eq] at written
  rwa [quote, written] at inside

theorem notMem_escaped (text : List Char) :
    '\n' ∉ text.flatMap escapeChar := by
  intro member
  obtain ⟨char, -, within⟩ := List.mem_flatMap.mp member
  rcases escapeChar_cases char with ⟨same, different⟩ | ⟨rest, same, -, noBreak⟩
  · rw [same, List.mem_singleton] at within
    exact different within.symm
  · rw [same] at within
    simp [noBreak] at within

theorem convertSingleQuotes_writeText (text : String) :
    convertSingleQuotes (writeText text) = writeText text := by
  obtain ⟨literal, quote, written, -⟩ := exists_literal text
  have requoted := literal.requote_text []
  rw [Literal.text_doubled quote, List.append_nil, written] at requoted
  rw [convertSingleQuotes, requoted, requote, List.append_nil]

/-- A written text is strict JSON. -/
theorem read_writeText (text : String) :
    read (writeText text) = .ok (.text text) := by
  obtain ⟨literal, quote, written, meant⟩ := exists_literal text
  have strict : (Spelling.literal literal).strict = writeText text := by
    rw [← written, ← Literal.text_doubled quote]
    exact List.append_nil _
  have read := read_strict [] [] (.literal literal)
  rw [strict, Gap.pieces_nil, List.flatMap_nil, List.nil_append, List.append_nil,
    Spelling.value, meant] at read
  exact read

theorem spells_word (word : Word) : Spells word.text (.scalar word.value) :=
  ⟨.word word, by simp [Spelling.text, Spelling.pieces, Piece.text], rfl⟩

theorem spells_writeText (text : String) : Spells (writeText text) (.text text) := by
  obtain ⟨literal, -, written, meant⟩ := exists_literal text
  refine ⟨.literal literal, ?_, ?_⟩
  · simp [Spelling.text, Spelling.pieces, Piece.text, written]
  · rw [Spelling.value, meant]

theorem exists_word {scalar : Scalar} (short : scalar.isShort = true) :
    (∃ text, scalar = .text text) ∨
      ∃ word : Word, word.text = writeScalar scalar ∧ word.value = scalar := by
  cases scalar with
  | text value => exact .inl ⟨value, rfl⟩
  | null => exact .inr ⟨.null, rfl, rfl⟩
  | bool value =>
      cases value with
      | true => exact .inr ⟨.true, rfl, rfl⟩
      | false => exact .inr ⟨.false, rfl, rfl⟩
  | integer value =>
      have few : digitCount value ≤ integerDigitLimit := by
        simpa [Scalar.isShort] using short
      refine .inr ⟨.number (.ofInteger value few), ?_, ?_⟩
      · rw [Word.text_number, Numeral.text_ofInteger few]
        rfl
      · rw [Word.value_number, Numeral.value_ofInteger few]
  | float value =>
      cases value with
      | nan => exact .inr ⟨.nan, rfl, rfl⟩
      | infinite negative =>
          cases negative with
          | true => exact .inr ⟨.negativeInfinity, rfl, rfl⟩
          | false => exact .inr ⟨.infinity, rfl, rfl⟩
      | finite negative ordinal =>
          obtain ⟨numeral, written, meant⟩ := exists_finite negative ordinal
          refine .inr ⟨.number numeral, ?_, ?_⟩
          · rw [Word.text_number, written]
            rfl
          · rw [Word.value_number, meant]

/-- What is written for a value without parts that is not a text consists of the letters of
words, an integer with more digits than a document may hold included. -/
theorem exists_text_or_letters (scalar : Scalar) :
    (∃ text, scalar = .text text) ∨ writeScalar scalar ≠ [] ∧
      ∀ char ∈ writeScalar scalar, isWordLetter char = true := by
  have ofShort (short : scalar.isShort = true) :
      (∃ text, scalar = .text text) ∨ writeScalar scalar ≠ [] ∧
        ∀ char ∈ writeScalar scalar, isWordLetter char = true := by
    rcases exists_word short with text | ⟨word, written, -⟩
    · exact .inl text
    · rw [← written]
      exact .inr ⟨text_word_ne_nil word, isWordLetter_of_mem_word word⟩
  cases scalar with
  | integer value =>
      have digits : ∀ char ∈ Nat.toDigits 10 value.natAbs, isWordLetter char = true :=
        fun char member => isWordLetter_of_isDigit (isDigit_of_mem_toDigits char member)
      refine .inr ?_
      rw [writeScalar, Number.writeInteger]
      split
      · exact ⟨by simp, List.forall_mem_cons.mpr ⟨rfl, digits⟩⟩
      · exact ⟨Nat.toDigits_ne_nil, digits⟩
  | _ => exact ofShort rfl

/-- What is written for a value without parts spells it. -/
theorem spells_writeScalar {scalar : Scalar} (short : scalar.isShort = true) :
    Spells (writeScalar scalar) (.scalar scalar) := by
  rcases exists_word short with ⟨text, rfl⟩ | ⟨word, written, meant⟩
  · exact spells_writeText text
  · rw [← written]
    have spelled := spells_word word
    rwa [meant] at spelled

/-! ## Lists and records -/

/-- Texts with commas between them: `first` stands before the first one, and
`next` after each comma. -/
def spaced (first next : List Char) : List (List Char) → List Char
  | [] => []
  | text :: rest =>
      first ++ text ++ rest.flatMap fun other => ',' :: next ++ other

/-- Texts joined by a separator: the separator stands before each of them but
the first. -/
theorem intercalate_cons (separator text : List Char)
    (texts : List (List Char)) :
    separator.intercalate (text :: texts) =
      text ++ texts.flatMap fun other => separator ++ other := by
  induction texts generalizing text with
  | nil => simp [List.intercalate]
  | cons next texts ih =>
      rw [List.flatMap_cons, List.append_assoc, ← ih next]
      simp [List.intercalate]

/-- Items with the same gap after each comma. -/
def Items.spaced (first next : Gap) : List Spelling → Items
  | [] => .nil
  | item :: rest => .cons first item [] (Items.spaced next next rest)

/-- Entries with the same gap after each comma. -/
def Fields.spaced (first next : Gap) : List Entry → Fields
  | [] => .nil
  | entry :: rest =>
      .cons first (.quoted entry.name) [] [.blank ' ' rfl] entry.content []
        (Fields.spaced next next rest)

theorem values_spaced (first next : Gap) (items : List Spelling) :
    (Items.spaced first next items).values = items.map Spelling.value := by
  induction items generalizing first with
  | nil => rfl
  | cons item items ih => rw [Items.spaced, Items.values, ih, List.map_cons]

theorem text_items_next (next : Gap) (items : List Spelling) :
    ((Items.spaced next next items).pieces [.mark .comma]).flatMap Piece.text =
      (items.map Spelling.text).flatMap fun other => ',' :: next.text ++ other := by
  induction items with
  | nil => rfl
  | cons item items ih =>
      rw [Items.spaced, Items.pieces, List.map_cons, List.flatMap_cons, ← ih]
      simp [Gap.flatMap_pieces, Piece.text, Mark.char, Spelling.text]

theorem text_items (first next : Gap) (items : List Spelling) :
    ((Items.spaced first next items).pieces []).flatMap Piece.text =
      Relaxed.spaced first.text next.text (items.map Spelling.text) := by
  cases items with
  | nil => rfl
  | cons item items =>
      rw [Items.spaced, Items.pieces, List.map_cons, Relaxed.spaced,
        ← text_items_next]
      simp [Gap.flatMap_pieces, Spelling.text]

theorem text_fields_next (next : Gap) (entries : List Entry) :
    ((Fields.spaced next next entries).pieces [.mark .comma]).flatMap
        Piece.text =
      (entries.map Entry.text).flatMap fun other => ',' :: next.text ++ other := by
  induction entries with
  | nil => rfl
  | cons entry entries ih =>
      rw [Fields.spaced, Fields.pieces, List.map_cons, List.flatMap_cons, ← ih]
      simp [Gap.flatMap_pieces, Piece.text, Mark.char, Filler.text,
        Key.piece, Entry.text, Spelling.text]

theorem text_fields (first next : Gap) (entries : List Entry) :
    ((Fields.spaced first next entries).pieces []).flatMap Piece.text =
      Relaxed.spaced first.text next.text (entries.map Entry.text) := by
  cases entries with
  | nil => rfl
  | cons entry entries =>
      rw [Fields.spaced, Fields.pieces, List.map_cons, Relaxed.spaced,
        ← text_fields_next]
      simp [Gap.flatMap_pieces, Piece.text, Mark.char, Filler.text,
        Key.piece, Entry.text, Spelling.text]

/-- Distinct names are kept in their order. -/
theorem settle_spaced (first next : Gap) (entries : List Entry)
    (before : List (String × Value))
    (distinct : ((before ++ entries.map Entry.field).map Prod.fst).Nodup) :
    (Fields.spaced first next entries).settle before =
      before ++ entries.map Entry.field := by
  induction entries generalizing first before with
  | nil => simp [Fields.spaced, Fields.settle]
  | cons entry entries ih =>
      have fresh : entry.name.value ∉ before.map Prod.fst := by
        rw [List.map_append, List.map_cons, List.map_cons] at distinct
        have apart := (List.nodup_append.mp distinct).2.2
        exact fun member => apart _ member _ List.mem_cons_self rfl
      rw [Fields.spaced, Fields.settle, Key.value, setField_of_notMem fresh, ih]
      · rw [List.append_assoc, List.map_cons]
        rfl
      · rw [List.append_assoc]
        exact distinct

variable {texts : List (List Char)} {values : List Value}
variable {fields : List (String × Value)}

theorem spells_list (first next last : Gap) (items : SpellsItems texts values) :
    Spells ('[' :: spaced first.text next.text texts ++ (last.text ++ [']']))
      (.list values) := by
  obtain ⟨spellings, rfl, rfl⟩ := items
  refine ⟨.list (Items.spaced first next spellings) false last, ?_, ?_⟩
  · simp only [Spelling.text, Spelling.pieces, List.flatMap_cons,
      List.flatMap_append, text_items, Gap.flatMap_pieces]
    rfl
  · rw [Spelling.value, values_spaced]

theorem spells_record (first next last : Gap)
    (spelled : SpellsFields texts fields)
    (distinct : (fields.map Prod.fst).Nodup) :
    Spells ('{' :: spaced first.text next.text texts ++ (last.text ++ ['}']))
      (.record fields) := by
  obtain ⟨entries, rfl, rfl⟩ := spelled
  refine ⟨.record (Fields.spaced first next entries) false last, ?_, ?_⟩
  · simp only [Spelling.text, Spelling.pieces, List.flatMap_cons,
      List.flatMap_append, text_fields, Gap.flatMap_pieces]
    rfl
  · rw [Spelling.value, settle_spaced _ _ _ [] (by simpa using distinct)]
    rfl

theorem spellsFields_cons (name : String) {content : List Char} {value : Value}
    (first : Spells content value) (others : SpellsFields texts fields) :
    SpellsFields ((writeText name ++ ':' :: ' ' :: content) :: texts)
      ((name, value) :: fields) := by
  obtain ⟨spelling, rfl, rfl⟩ := first
  obtain ⟨entries, rfl, rfl⟩ := others
  obtain ⟨literal, -, written, meant⟩ := exists_literal name
  refine ⟨⟨literal, spelling⟩ :: entries, ?_, ?_⟩
  · rw [List.map_cons, Entry.text, written]
  · rw [List.map_cons, Entry.field, meant]

/-! ## Laid out values -/

def Gap.ofBlanks (blanks : List Char)
    (separate : ∀ char ∈ blanks, isSeparator char = true) : Gap :=
  blanks.attach.map fun char => .blank char.val (separate char.val char.property)

theorem Gap.text_ofBlanks {blanks : List Char}
    (separate : ∀ char ∈ blanks, isSeparator char = true) :
    (Gap.ofBlanks blanks separate).text = blanks := by
  rw [Gap.text, Gap.ofBlanks, List.flatMap_map]
  simp [Filler.text]

theorem isSeparator_of_mem_lineBreak (step : Int) (level : Nat) :
    ∀ char ∈ lineBreak step level, isSeparator char = true :=
  forall_mem_lineBreak rfl rfl

/-- The gap at the beginning of a line. -/
def breakGap (step : Int) (level : Nat) : Gap :=
  .ofBlanks (lineBreak step level) (isSeparator_of_mem_lineBreak step level)

theorem text_breakGap (step : Int) (level : Nat) :
    (breakGap step level).text = lineBreak step level :=
  Gap.text_ofBlanks _

theorem spells_bracketed_list (step : Int) (level : Nat)
    (items : SpellsItems texts values) :
    Spells (bracketed '[' ']' step level texts) (.list values) := by
  cases texts with
  | nil => exact spells_list [] [] [] items
  | cons text texts =>
      have spelled := spells_list (breakGap step (level + 1))
        (breakGap step (level + 1)) (breakGap step level) items
      rw [text_breakGap, text_breakGap] at spelled
      simpa [spaced, bracketed] using spelled

theorem spells_bracketed_record (step : Int) (level : Nat)
    (spelled : SpellsFields texts fields)
    (distinct : (fields.map Prod.fst).Nodup) :
    Spells (bracketed '{' '}' step level texts) (.record fields) := by
  cases texts with
  | nil => exact spells_record [] [] [] spelled distinct
  | cons text texts =>
      have spelled := spells_record (breakGap step (level + 1))
        (breakGap step (level + 1)) (breakGap step level) spelled distinct
      rw [text_breakGap, text_breakGap] at spelled
      simpa [spaced, bracketed] using spelled

mutual

theorem spells_writeValue (step : Int) (level : Nat) :
    (value : Value) → value.isProper = true →
      Spells (writeValue step level value) value
  | .scalar scalar, proper => by
      rw [Value.isProper] at proper
      rw [writeValue]
      exact spells_writeScalar proper
  | .list items, proper => by
      rw [Value.isProper] at proper
      rw [writeValue]
      exact spells_bracketed_list step level
        (spells_writeItems step (level + 1) items proper)
  | .record fields, proper => by
      rw [Value.isProper, Bool.and_eq_true, decide_eq_true_eq] at proper
      rw [writeValue]
      exact spells_bracketed_record step level
        (spells_writeFields step (level + 1) fields proper.2) proper.1

theorem spells_writeItems (step : Int) (level : Nat) :
    (items : List Value) → areProper items = true →
      SpellsItems (writeItems step level items) items
  | [], _ => spellsItems_nil
  | item :: rest, proper => by
      rw [areProper, Bool.and_eq_true] at proper
      rw [writeItems]
      exact spellsItems_cons (spells_writeValue step level item proper.1)
        (spells_writeItems step level rest proper.2)

theorem spells_writeFields (step : Int) (level : Nat) :
    (fields : List (String × Value)) → areProperFields fields = true →
      SpellsFields (writeFields step level fields) fields
  | [], _ => spellsFields_nil
  | (name, content) :: rest, proper => by
      rw [areProperFields, Bool.and_eq_true] at proper
      rw [writeFields]
      exact spellsFields_cons _ (spells_writeValue step level content proper.1)
        (spells_writeFields step level rest proper.2)

end

end TwinSchema.Relaxed
