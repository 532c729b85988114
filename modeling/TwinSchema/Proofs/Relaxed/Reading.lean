import TwinSchema.Proofs.Json.Reading
import TwinSchema.Proofs.Relaxed.Layout
import TwinSchema.Proofs.Relaxed.Token
import TwinSchema.Relaxed.Reader

/-!
# Reading spellings

The repaired text of a spelling is strict JSON of the value that is meant, so a
relaxed document is decoded as the value that it spells.
-/

namespace TwinSchema.Relaxed

open Json

theorem not_isWordLetter_of_isSeparator {char : Char}
    (separates : isSeparator char = true) : isWordLetter char = false := by
  cases letter : isWordLetter char with
  | false => rfl
  | true =>
      rw [← isBlank_eq_false_of_isWordLetter letter,
        isBlank_of_isSeparator separates]

theorem stops_blanks {blanks rest : List Char}
    (separates : ∀ char ∈ blanks, isSeparator char = true)
    (stops : Text.Stops isWordLetter rest) :
    Text.Stops isWordLetter (blanks ++ rest) := by
  cases blanks with
  | nil => exact stops
  | cons char blanks =>
      exact Text.stops_cons
        (not_isWordLetter_of_isSeparator (separates char List.mem_cons_self))

theorem stops_mark (sign : Mark) (rest : List Char) :
    Text.Stops isWordLetter (sign.char :: rest) :=
  Text.stops_cons (by cases sign <;> decide)

/-- The blanks that a gap leaves. -/
theorem Gap.isSeparator_of_mem (gap : Gap) :
    ∀ char ∈ (Gap.pieces gap).flatMap Piece.strict, isSeparator char = true := by
  intro char member
  simp only [Gap.pieces, List.flatMap_map, List.mem_flatMap] at member
  obtain ⟨filler, -, inside⟩ := member
  exact filler.isSeparator_of_mem char inside

@[simp] theorem lexemes_gap (gap : Gap) (rest : List Char) :
    lexemes ((Gap.pieces gap).flatMap Piece.strict ++ rest) = lexemes rest :=
  lexemes_blanks gap.isSeparator_of_mem rest

theorem stops_gap (gap : Gap) {rest : List Char}
    (stops : Text.Stops isWordLetter rest) :
    Text.Stops isWordLetter ((Gap.pieces gap).flatMap Piece.strict ++ rest) :=
  stops_blanks gap.isSeparator_of_mem stops

@[simp] theorem strict_trailer (asked empty : Bool) :
    (trailer asked empty).flatMap Piece.strict = [] := by
  rw [trailer]
  split <;> rfl

/-- The characters of a bare key may stand in double quotes as they are. -/
theorem allowed_plain {name : List Char}
    (allowed : ∀ char ∈ name, Text.isKeyChar char = true) :
    ∀ letter ∈ name.map Letter.plain, letter.Allowed '"' := by
  intro letter member
  obtain ⟨char, within, rfl⟩ := List.mem_map.mp member
  have word := isWordLetter_of_isKeyChar (allowed char within)
  have range := range_of_isWordLetter word
  exact ⟨by omega, ne_of_isWordLetter word (by decide),
    ne_of_isWordLetter word (by decide)⟩

/-- A key in double quotes. -/
def Key.literal : Key → Literal
  | .bare name _ allowed =>
      .ofLetters (name.map .plain) (allowed_plain allowed)
  | .quoted literal => literal

theorem Key.value_literal (key : Key) : key.literal.value = key.value := by
  cases key with
  | bare name nonempty allowed =>
      simp [literal, value, Literal.value, Function.comp_def, Letter.char]
  | quoted literal => rfl

theorem Key.strict_piece (key : Key) :
    key.piece.strict = key.literal.doubled.text := by
  cases key with
  | quoted literal => rfl
  | bare name nonempty allowed =>
      rw [Literal.text_doubled rfl]
      simp [piece, Piece.strict, literal, Literal.text, List.flatMap_map,
        Letter.text]

theorem Key.exists_lexeme (key : Key) (rest : List Char) :
    ∃ lexeme others, lexemes (key.piece.strict ++ rest) = lexeme :: others ∧
      lexeme.token ≠ .closeRecord := by
  rw [key.strict_piece]
  exact ⟨_, _, lexemes_literal key.literal rest, by simp⟩

theorem run_itemOrEnd {lexeme : Lexeme} (different : lexeme.token ≠ .closeList)
    (frames : List Frame) (rest : List Lexeme) :
    (State.itemOrEnd frames).run (lexeme :: rest) =
      (State.valueDue (.list [] :: frames)).run (lexeme :: rest) := by
  have same : (State.itemOrEnd frames).step lexeme =
      (State.valueDue (.list [] :: frames)).step lexeme := by
    obtain ⟨token, remaining⟩ := lexeme
    cases token <;> first | rfl | exact absurd rfl different
  simp only [State.run, same]

theorem run_nameOrEnd {lexeme : Lexeme} (different : lexeme.token ≠ .closeRecord)
    (frames : List Frame) (rest : List Lexeme) :
    (State.nameOrEnd frames).run (lexeme :: rest) =
      (State.nameDue [] frames).run (lexeme :: rest) := by
  have same : (State.nameOrEnd frames).step lexeme =
      (State.nameDue [] frames).step lexeme := by
    obtain ⟨token, remaining⟩ := lexeme
    cases token <;> first | rfl | exact absurd rfl different
  simp only [State.run, same]

theorem run_comma_list (value : Value) (items : List Value)
    (frames : List Frame) (remaining : List Char) (rest : List Lexeme) :
    (State.complete value (.list items :: frames)).run
        (⟨.comma, remaining⟩ :: rest) =
      (State.valueDue (.list (value :: items) :: frames)).run rest := rfl

theorem run_comma_record (value : Value) (fields : List (String × Value))
    (name : String) (frames : List Frame) (remaining : List Char)
    (rest : List Lexeme) :
    (State.complete value (.record fields name :: frames)).run
        (⟨.comma, remaining⟩ :: rest) =
      (State.nameDue (setField name value fields) frames).run rest := rfl

theorem run_key (key : Key) (afterKey beforeItem : Gap)
    (fields : List (String × Value)) (frames : List Frame) (rest : List Char) :
    (State.nameDue fields frames).run (lexemes (key.piece.strict ++
        ((Gap.pieces afterKey).flatMap Piece.strict ++
          ':' :: ((Gap.pieces beforeItem).flatMap Piece.strict ++ rest)))) =
      (State.valueDue (.record fields key.value :: frames)).run
        (lexemes rest) := by
  rw [key.strict_piece, lexemes_literal, lexemes_gap,
    show ':' = Mark.colon.char from rfl, lexemes_mark, lexemes_gap,
    key.value_literal]
  rfl

/-! ## Values -/

namespace Spelling

/-- The repaired text of a spelling. -/
def strict (spelling : Spelling) : List Char :=
  spelling.pieces.flatMap Piece.strict

/-- A repaired spelling begins with a token that closes nothing. -/
theorem exists_lexeme (spelling : Spelling) {rest : List Char}
    (stops : Text.Stops isWordLetter rest) :
    ∃ lexeme others, lexemes (spelling.strict ++ rest) = lexeme :: others ∧
      lexeme.token ≠ .closeList := by
  cases spelling with
  | word spelled =>
      simp only [strict, pieces, List.flatMap_cons, List.flatMap_nil,
        List.append_nil]
      exact ⟨_, _, lexemes_word spelled stops, by simp⟩
  | literal quoted =>
      simp only [strict, pieces, List.flatMap_cons, List.flatMap_nil,
        List.append_nil]
      exact ⟨_, _, lexemes_literal quoted rest, by simp⟩
  | list items trailing last =>
      simp only [strict, pieces, List.flatMap_cons]
      exact ⟨_, _, lexemes_mark .openList _, by simp [Mark.token]⟩
  | record fields trailing last =>
      simp only [strict, pieces, List.flatMap_cons]
      exact ⟨_, _, lexemes_mark .openRecord _, by simp [Mark.token]⟩

end Spelling

/-- The repaired text of items. -/
def Items.strict (separator : List Piece) (items : Items) : List Char :=
  (items.pieces separator).flatMap Piece.strict

/-- The repaired text of fields. -/
def Fields.strict (separator : List Piece) (fields : Fields) : List Char :=
  (fields.pieces separator).flatMap Piece.strict

theorem Items.strict_cons (separator : List Piece) (before after : Gap)
    (item : Spelling) (rest : Items) (more : List Char) :
    (Items.cons before item after rest).strict separator ++ more =
      separator.flatMap Piece.strict ++
        ((Gap.pieces before).flatMap Piece.strict ++ (item.strict ++
          ((Gap.pieces after).flatMap Piece.strict ++
            (rest.strict [.mark .comma] ++ more)))) := by
  simp only [strict, pieces, Spelling.strict, List.flatMap_append,
    List.append_assoc]

theorem Fields.strict_cons (separator : List Piece)
    (before afterKey beforeItem after : Gap) (key : Key) (item : Spelling)
    (rest : Fields) (more : List Char) :
    (Fields.cons before key afterKey beforeItem item after rest).strict
        separator ++ more =
      separator.flatMap Piece.strict ++
        ((Gap.pieces before).flatMap Piece.strict ++ (key.piece.strict ++
          ((Gap.pieces afterKey).flatMap Piece.strict ++
            ':' :: ((Gap.pieces beforeItem).flatMap Piece.strict ++
              (item.strict ++ ((Gap.pieces after).flatMap Piece.strict ++
                (rest.strict [.mark .comma] ++ more))))))) := by
  simp only [strict, pieces, Spelling.strict, List.flatMap_append,
    List.flatMap_cons, List.append_assoc, Piece.strict, Piece.undangled,
    Piece.doubled, Piece.uncommented, Piece.text, Mark.char, List.cons_append,
    List.nil_append]

theorem lexemes_separator (sign : Mark) (rest : List Char) :
    lexemes ([Piece.mark sign].flatMap Piece.strict ++ rest) =
      ⟨sign.token, sign.char :: rest⟩ :: lexemes rest :=
  lexemes_mark sign rest

theorem stops_items {rest : List Char} (stops : Text.Stops isWordLetter rest)
    (items : Items) :
    Text.Stops isWordLetter (items.strict [.mark .comma] ++ rest) := by
  cases items with
  | nil => exact stops
  | cons before item after items => exact stops_mark .comma _

theorem stops_fields {rest : List Char} (stops : Text.Stops isWordLetter rest)
    (fields : Fields) :
    Text.Stops isWordLetter (fields.strict [.mark .comma] ++ rest) := by
  cases fields with
  | nil => exact stops
  | cons before key afterKey beforeItem item after fields =>
      exact stops_mark .comma _

theorem run_openList (frames : List Frame) (items : Items) (trailing : Bool)
    (last : Gap) (rest : List Char) :
    (State.valueDue frames).run
      (lexemes ((Spelling.list items trailing last).strict ++ rest)) =
      (State.itemOrEnd frames).run (lexemes (items.strict [] ++
        ((Gap.pieces last).flatMap Piece.strict ++ ']' :: rest))) := by
  have opened : lexemes ((Spelling.list items trailing last).strict ++ rest) =
      ⟨.openList, (Spelling.list items trailing last).strict ++ rest⟩ ::
        lexemes (items.strict [] ++
          ((Gap.pieces last).flatMap Piece.strict ++ ']' :: rest)) := by
    simp only [Spelling.strict, Spelling.pieces, Items.strict,
      List.flatMap_cons, List.flatMap_append, strict_trailer,
      List.append_assoc, List.nil_append, List.flatMap_nil]
    exact lexemes_mark .openList _
  rw [opened]
  rfl

theorem run_openRecord (frames : List Frame) (fields : Fields) (trailing : Bool)
    (last : Gap) (rest : List Char) :
    (State.valueDue frames).run
      (lexemes ((Spelling.record fields trailing last).strict ++ rest)) =
      (State.nameOrEnd frames).run (lexemes (fields.strict [] ++
        ((Gap.pieces last).flatMap Piece.strict ++ '}' :: rest))) := by
  have opened : lexemes ((Spelling.record fields trailing last).strict ++ rest) =
      ⟨.openRecord, (Spelling.record fields trailing last).strict ++ rest⟩ ::
        lexemes (fields.strict [] ++
          ((Gap.pieces last).flatMap Piece.strict ++ '}' :: rest)) := by
    simp only [Spelling.strict, Spelling.pieces, Fields.strict,
      List.flatMap_cons, List.flatMap_append, strict_trailer,
      List.append_assoc, List.nil_append, List.flatMap_nil]
    exact lexemes_mark .openRecord _
  rw [opened]
  rfl

mutual

/-- Where a value is due, a spelling is read as its value. -/
theorem Spelling.run_strict (frames : List Frame) {rest : List Char}
    (stops : Text.Stops isWordLetter rest) :
    (spelling : Spelling) →
      (State.valueDue frames).run (lexemes (spelling.strict ++ rest)) =
        (State.complete spelling.value frames).run (lexemes rest)
  | .word spelled => by
      simp only [Spelling.strict, Spelling.pieces, List.flatMap_cons,
        List.flatMap_nil, List.append_nil]
      rw [show Piece.strict (.word spelled) = spelled.text from rfl,
        lexemes_word spelled stops]
      rfl
  | .literal quoted => by
      simp only [Spelling.strict, Spelling.pieces, List.flatMap_cons,
        List.flatMap_nil, List.append_nil]
      rw [show Piece.strict (.literal quoted) = quoted.doubled.text from rfl,
        lexemes_literal]
      rfl
  | .list items trailing last => by
      rw [run_openList]
      cases items with
      | nil =>
          rw [show Items.nil.strict [] = [] from rfl, List.nil_append,
            lexemes_gap, show ']' = Mark.closeList.char from rfl, lexemes_mark]
          rfl
      | cons before item after items =>
          have stopped := stops_gap after
            (stops_items (stops_gap last (stops_mark .closeList rest)) items)
          obtain ⟨lexeme, others, same, different⟩ := item.exists_lexeme stopped
          rw [Items.strict_cons, List.flatMap_nil, List.nil_append, lexemes_gap,
            show ']' = Mark.closeList.char from rfl, same,
            run_itemOrEnd different, ← same,
            Spelling.run_strict _ stopped item, lexemes_gap]
          exact Items.run_strict frames last rest items item.value []
  | .record fields trailing last => by
      rw [run_openRecord]
      cases fields with
      | nil =>
          rw [show Fields.nil.strict [] = [] from rfl, List.nil_append,
            lexemes_gap, show '}' = Mark.closeRecord.char from rfl, lexemes_mark]
          rfl
      | cons before key afterKey beforeItem item after fields =>
          have stopped := stops_gap after
            (stops_fields (stops_gap last (stops_mark .closeRecord rest)) fields)
          obtain ⟨lexeme, others, same, different⟩ := key.exists_lexeme
            ((Gap.pieces afterKey).flatMap Piece.strict ++
              ':' :: ((Gap.pieces beforeItem).flatMap Piece.strict ++
                (item.strict ++ ((Gap.pieces after).flatMap Piece.strict ++
                  (fields.strict [.mark .comma] ++
                    ((Gap.pieces last).flatMap Piece.strict ++ '}' :: rest))))))
          rw [Fields.strict_cons, List.flatMap_nil, List.nil_append, lexemes_gap,
            same, run_nameOrEnd different, ← same, run_key,
            show '}' = Mark.closeRecord.char from rfl,
            Spelling.run_strict _ stopped item, lexemes_gap]
          exact Fields.run_strict frames last rest fields item.value key.value []

/-- After an item, the items that follow are read up to the closing bracket. -/
theorem Items.run_strict (frames : List Frame) (last : Gap) (rest : List Char) :
    (items : Items) → (value : Value) → (done : List Value) →
      (State.complete value (.list done :: frames)).run
        (lexemes (items.strict [.mark .comma] ++
          ((Gap.pieces last).flatMap Piece.strict ++ ']' :: rest))) =
        (State.complete (.list ((value :: done).reverse ++ items.values))
          frames).run (lexemes rest)
  | .nil, value, done => by
      rw [show Items.nil.strict [.mark .comma] = [] from rfl, List.nil_append,
        lexemes_gap, show ']' = Mark.closeList.char from rfl, lexemes_mark,
        Items.values, List.append_nil]
      rfl
  | .cons before item after items, value, done => by
      have stopped := stops_gap after
        (stops_items (stops_gap last (stops_mark .closeList rest)) items)
      rw [Items.strict_cons, lexemes_separator, Mark.token, run_comma_list,
        lexemes_gap, show ']' = Mark.closeList.char from rfl,
        Spelling.run_strict _ stopped item, lexemes_gap, Items.values]
      have later := Items.run_strict frames last rest items item.value
        (value :: done)
      rw [List.reverse_cons, List.append_assoc, List.singleton_append] at later
      exact later

/-- After a field, the fields that follow are read up to the closing brace. -/
theorem Fields.run_strict (frames : List Frame) (last : Gap) (rest : List Char) :
    (fields : Fields) → (value : Value) → (name : String) →
      (done : List (String × Value)) →
      (State.complete value (.record done name :: frames)).run
        (lexemes (fields.strict [.mark .comma] ++
          ((Gap.pieces last).flatMap Piece.strict ++ '}' :: rest))) =
        (State.complete (.record (fields.settle (setField name value done)))
          frames).run (lexemes rest)
  | .nil, value, name, done => by
      rw [show Fields.nil.strict [.mark .comma] = [] from rfl,
        List.nil_append, lexemes_gap, show '}' = Mark.closeRecord.char from rfl,
        lexemes_mark]
      rfl
  | .cons before key afterKey beforeItem item after fields, value, name, done => by
      have stopped := stops_gap after
        (stops_fields (stops_gap last (stops_mark .closeRecord rest)) fields)
      rw [Fields.strict_cons, lexemes_separator, Mark.token, run_comma_record,
        lexemes_gap, run_key, show '}' = Mark.closeRecord.char from rfl,
        Spelling.run_strict _ stopped item, lexemes_gap]
      exact Fields.run_strict frames last rest fields item.value key.value
        (setField name value done)

end

/-- A repaired spelling begins with a visible character of the ASCII block. -/
theorem Spelling.exists_head (spelling : Spelling) :
    ∃ char rest, spelling.strict = char :: rest ∧ char ≠ '\uFEFF' := by
  cases spelling with
  | word spelled =>
      obtain ⟨char, rest, same⟩ :=
        List.exists_cons_of_ne_nil (text_word_ne_nil spelled)
      have letter := isWordLetter_of_mem_word spelled char (by simp [same])
      refine ⟨char, rest, ?_, ne_of_isWordLetter letter (by decide)⟩
      rw [← same]
      exact List.append_nil _
  | literal quoted => exact ⟨'"', _, rfl, by decide⟩
  | list items trailing last => exact ⟨'[', _, rfl, by decide⟩
  | record fields trailing last => exact ⟨'{', _, rfl, by decide⟩

theorem Spelling.exists_visible (spelling : Spelling) :
    ∃ char ∈ spelling.text, Text.isBlank char = false := by
  cases spelling with
  | word spelled =>
      obtain ⟨char, rest, same⟩ :=
        List.exists_cons_of_ne_nil (text_word_ne_nil spelled)
      have member : char ∈ spelled.text := by simp [same]
      refine ⟨char, ?_, isBlank_eq_false_of_isWordLetter
        (isWordLetter_of_mem_word spelled char member)⟩
      simpa [text, pieces, Piece.text] using member
  | literal quoted =>
      refine ⟨quoted.quote, by simp [text, pieces, Piece.text, Literal.text], ?_⟩
      rcases quoted.quoted with same | same <;> rw [same] <;> decide
  | list items trailing last =>
      exact ⟨'[', by simp [text, pieces, Piece.text, Mark.char], by decide⟩
  | record fields trailing last =>
      exact ⟨'{', by simp [text, pieces, Piece.text, Mark.char], by decide⟩

/-- The strict text of a document is read as its value. -/
theorem read_strict (before after : Gap) (spelling : Spelling) :
    read ((Gap.pieces before).flatMap Piece.strict ++ (spelling.strict ++
        (Gap.pieces after).flatMap Piece.strict)) = .ok spelling.value := by
  have noMark : ∀ rest, (Gap.pieces before).flatMap Piece.strict ++
      (spelling.strict ++ (Gap.pieces after).flatMap Piece.strict) ≠
        '\uFEFF' :: rest := by
    intro rest same
    have separators := before.isSeparator_of_mem
    cases blanks : (Gap.pieces before).flatMap Piece.strict with
    | nil =>
        obtain ⟨char, others, head, different⟩ := spelling.exists_head
        rw [blanks, head] at same
        simp only [List.nil_append, List.cons_append, List.cons.injEq] at same
        exact different same.1
    | cons char others =>
        rw [blanks] at separators same
        have separates := separators char List.mem_cons_self
        simp only [List.cons_append, List.cons.injEq] at same
        rw [same.1] at separates
        cases separates
  have final : lexemes ((Gap.pieces after).flatMap Piece.strict) = [] := by
    rw [← List.append_nil ((Gap.pieces after).flatMap Piece.strict), lexemes_gap,
      lexemes]
  have stopped : Text.Stops isWordLetter
      ((Gap.pieces after).flatMap Piece.strict) := by
    rw [← List.append_nil ((Gap.pieces after).flatMap Piece.strict)]
    exact stops_gap after Text.stops_nil
  unfold Json.read
  split
  · rename_i same
    exact absurd same (noMark _)
  · rw [lexemes_gap, Spelling.run_strict [] stopped spelling, final]
    rfl

/-- What the regular pass makes of a spelling between two gaps is read as its
value. -/
theorem read_pieces (before after : Gap) (spelling : Spelling) :
    read (normalize (stripComments Text.documentQuotes
      ((Gap.pieces before ++ (spelling.pieces ++ Gap.pieces after)).flatMap
        Piece.text))) = .ok spelling.value := by
  have afterEnd : Orderly false (Gap.pieces after) := by
    rw [← List.append_nil (Gap.pieces after), orderly_gapPieces]
    exact trivial
  have ends : endsWord (follower (Gap.pieces after)) = true := by
    rw [← List.append_nil (Gap.pieces after), follower_gapPieces]
    rfl
  have orderly : Orderly false (Gap.pieces before ++ (spelling.pieces ++
      Gap.pieces after)) := by
    rw [orderly_gapPieces]
    exact Spelling.orderly ends afterEnd spelling
  have strict := read_strict before after spelling
  rw [Spelling.strict] at strict
  rw [normalize_pieces orderly, List.flatMap_append, List.flatMap_append, strict]

/-- A spelling between two gaps is decoded as its value. -/
theorem decode_pieces (before after : Gap) (spelling : Spelling) :
    decode ((Gap.pieces before ++ (spelling.pieces ++
      Gap.pieces after)).flatMap Piece.text) = .ok spelling.value := by
  have visible : Text.allBlank ((Gap.pieces before ++ (spelling.pieces ++
      Gap.pieces after)).flatMap Piece.text) = false := by
    obtain ⟨char, member, notBlank⟩ := spelling.exists_visible
    rw [Text.allBlank, List.all_eq_false]
    refine ⟨char, ?_, by simp [notBlank]⟩
    rw [List.flatMap_append, List.flatMap_append]
    exact List.mem_append_right _ (List.mem_append_left _ member)
  rw [decode, visible, if_neg Bool.false_ne_true, decodeClean,
    read_pieces before after spelling]

/-- Whatever the way in which a document spells its value, it is decoded as that
value. -/
theorem decode_spelling (before after : Gap) (spelling : Spelling) :
    decode (before.text ++ spelling.text ++ after.text) =
      .ok spelling.value := by
  have read := decode_pieces before after spelling
  rw [List.flatMap_append, List.flatMap_append, Gap.flatMap_pieces,
    Gap.flatMap_pieces, ← List.append_assoc] at read
  exact read

/-- A document can hold again what is decoded from a document. -/
theorem isProper_of_decode {text : List Char} {value : Value}
    (decoded : decode text = .ok value) : value.isProper = true := by
  rw [decode] at decoded
  split at decoded
  next => cases decoded
  next =>
    unfold decodeClean at decoded
    simp only at decoded
    split at decoded
    next found => cases decoded; exact isProper_of_read found
    next => cases decoded
    next =>
      split at decoded
      next found => cases decoded; exact isProper_of_read found
      all_goals cases decoded

end TwinSchema.Relaxed
