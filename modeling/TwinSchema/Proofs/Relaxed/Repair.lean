import TwinSchema.Proofs.Relaxed.Chunk
import TwinSchema.Proofs.Relaxed.Piece
import TwinSchema.Proofs.Text.Visible
import TwinSchema.Relaxed.Repair

/-!
# Repairing pieces

The regular pass drops the dangling commas and quotes the bare keys of a
document, and changes nothing else. Both repairs look ahead over gaps, so what
a piece becomes depends on the piece that follows it; `Orderly` says what may
follow what.
-/

namespace TwinSchema.Relaxed

open Json Text

/-- Whether a piece only separates others. -/
def Piece.isGap : Piece → Bool
  | .gap _ => true
  | _ => false

/-- Whether a piece is a quoted text. -/
def Piece.isLiteral : Piece → Bool
  | .literal _ => true
  | _ => false

/-- The first piece that is no gap. -/
def follower (pieces : List Piece) : Option Piece :=
  pieces.find? fun piece => !piece.isGap

def closes : Option Piece → Bool
  | some (.mark .closeRecord) => true
  | some (.mark .closeList) => true
  | _ => false

/-- Whether a piece may follow a word: no name, no other word and no colon. -/
def endsWord : Option Piece → Bool
  | some (.bare _ _ _) => false
  | some (.word _) => false
  | some (.mark .colon) => false
  | _ => true

/-- Whether a bare key may follow a mark. -/
def Mark.opensSlot : Mark → Bool
  | .openRecord => true
  | .comma => true
  | _ => false

/-- Pieces in an order in which the repairs find them: just the dangling commas
stand before closing brackets, bare keys stand in a slot and before a colon, and
words stand apart. `slot` tells whether the last piece before was an opening
brace or a comma. -/
def Orderly : (slot : Bool) → List Piece → Prop
  | _, [] => True
  | slot, .gap _ :: rest => Orderly slot rest
  | _, .mark sign :: rest =>
      (sign = .comma → closes (follower rest) = false) ∧
        Orderly sign.opensSlot rest
  | slot, .dangling :: rest => closes (follower rest) = true ∧ Orderly slot rest
  | slot, .bare _ _ _ :: rest =>
      slot = true ∧ follower rest = some (.mark .colon) ∧ Orderly false rest
  | _, .literal _ :: rest => Orderly false rest
  | _, .word _ :: rest => endsWord (follower rest) = true ∧ Orderly false rest

@[simp] theorem follower_gap (filler : Filler) (rest : List Piece) :
    follower (.gap filler :: rest) = follower rest := rfl

theorem follower_cons {piece : Piece} (noGap : piece.isGap = false)
    (rest : List Piece) : follower (piece :: rest) = some piece := by
  simp [follower, noGap]

theorem isBlank_of_isSeparator {char : Char}
    (separates : isSeparator char = true) : isBlank char = true := by
  rcases isSeparator_iff.mp separates with rfl | rfl | rfl | rfl <;> decide

theorem ne_of_isWordLetter {char other : Char}
    (letter : isWordLetter char = true) (different : isWordLetter other = false) :
    char ≠ other := by
  rintro rfl
  rw [letter] at different
  cases different

theorem Filler.isBlank_of_mem (filler : Filler) :
    ∀ char ∈ filler.blanks, isBlank char = true :=
  fun char member => isBlank_of_isSeparator (filler.isSeparator_of_mem char member)

/-- The first character of a word. -/
theorem text_word_ne_nil (word : Word) : word.text ≠ [] := by
  cases word with
  | number numeral =>
      rw [Word.text_number]
      rw [Numeral.text, Numeral.unsigned]
      split
      · simp
      · simp [numeral.nonempty]
  | null => decide
  | true => decide
  | false => decide
  | nan => decide
  | infinity => decide
  | negativeInfinity => decide

/-- A piece that is neither a gap nor a text begins with a visible character, by
which closing brackets and colons are told apart from the rest. -/
theorem Piece.exists_head {piece : Piece} (noGap : piece.isGap = false)
    (noLiteral : piece.isLiteral = false) :
    ∃ char rest, piece.doubled = char :: rest ∧ isBlank char = false ∧
      ((char = '}' ∨ char = ']') ↔ closes (some piece) = true) ∧
      (char = ':' ↔ piece = .mark .colon) := by
  have ofLetters : ∀ {text : List Char}, text ≠ [] →
      (∀ char ∈ text, isWordLetter char = true) →
      ∃ char rest, text = char :: rest ∧ isBlank char = false ∧ char ≠ '}' ∧
        char ≠ ']' ∧ char ≠ ':' := by
    intro text nonempty letters
    obtain ⟨char, rest, rfl⟩ := List.exists_cons_of_ne_nil nonempty
    have letter := letters char List.mem_cons_self
    exact ⟨char, rest, rfl, isBlank_eq_false_of_isWordLetter letter,
      ne_of_isWordLetter letter (by decide),
      ne_of_isWordLetter letter (by decide),
      ne_of_isWordLetter letter (by decide)⟩
  cases piece with
  | gap filler => simp [isGap] at noGap
  | literal quoted => simp [isLiteral] at noLiteral
  | mark sign =>
      refine ⟨sign.char, [], rfl, ?_, ?_, ?_⟩ <;>
        cases sign <;> simp [Mark.char, closes, isBlank]
  | dangling =>
      refine ⟨',', [], rfl, by decide, by decide, by simp⟩
  | bare name nonempty allowed =>
      obtain ⟨char, rest, same, visible, notBrace, notBracket, notColon⟩ :=
        ofLetters nonempty
          fun char member => isWordLetter_of_isKeyChar (allowed char member)
      exact ⟨char, rest, same, visible, by simp [notBrace, notBracket, closes],
        by simp [notColon]⟩
  | word spelled =>
      obtain ⟨char, rest, same, visible, notBrace, notBracket, notColon⟩ :=
        ofLetters (text_word_ne_nil spelled) (isWordLetter_of_mem_word spelled)
      exact ⟨char, rest, same, visible, by simp [notBrace, notBracket, closes],
        by simp [notColon]⟩

/-- In code, a closing bracket is the first visible character just where it
follows. -/
theorem closes_follower {pieces : List Piece}
    (noLiteral : ∀ piece ∈ pieces, piece.isLiteral = false) :
    (firstVisible (pieces.flatMap Piece.doubled) = some '}' ∨
        firstVisible (pieces.flatMap Piece.doubled) = some ']') ↔
      closes (follower pieces) = true := by
  induction pieces with
  | nil => simp [firstVisible, follower, closes]
  | cons piece pieces ih =>
      have others := ih fun next member =>
        noLiteral next (List.mem_cons_of_mem piece member)
      have first := noLiteral piece List.mem_cons_self
      cases gap : piece.isGap with
      | true =>
          obtain ⟨filler, rfl⟩ : ∃ filler, piece = .gap filler := by
            cases piece <;> simp_all [Piece.isGap]
          rw [List.flatMap_cons, follower_gap, ← others]
          simp only [Piece.doubled, Piece.uncommented]
          rw [firstVisible_blanks filler.isBlank_of_mem]
      | false =>
          obtain ⟨char, rest, same, visible, closing, -⟩ :=
            Piece.exists_head gap first
          rw [List.flatMap_cons, same, follower_cons gap, ← closing,
            List.cons_append, firstVisible_cons visible]
          simp

theorem dropDanglingCommas_code {code : List Char}
    (noComma : ∀ char ∈ code, char ≠ ',') (rest : List Char) :
    dropDanglingCommas (code ++ rest) = code ++ dropDanglingCommas rest := by
  induction code with
  | nil => rfl
  | cons char code ih =>
      have first := noComma char List.mem_cons_self
      rw [List.cons_append, dropDanglingCommas, if_neg (by simp [first]),
        ih fun next member => noComma next (List.mem_cons_of_mem char member),
        List.cons_append]

/-- Apart from the two kinds of commas, code holds no comma. -/
theorem Piece.ne_comma_of_mem {piece : Piece} (noLiteral : piece.isLiteral = false)
    (noComma : piece ≠ .mark .comma) (noDangling : piece ≠ .dangling) :
    ∀ char ∈ piece.doubled, char ≠ ',' := by
  cases piece with
  | gap filler =>
      rintro char member rfl
      have := filler.isSeparator_of_mem _ member
      simp [isSeparator] at this
  | literal quoted => simp [isLiteral] at noLiteral
  | mark sign => cases sign <;> simp_all [doubled, uncommented, text, Mark.char]
  | dangling => exact absurd rfl noDangling
  | bare name nonempty allowed =>
      exact fun char member => ne_of_isWordLetter
        (isWordLetter_of_isKeyChar (allowed char member)) (by decide)
  | word spelled =>
      exact fun char member => ne_of_isWordLetter
        (isWordLetter_of_mem_word spelled char member) (by decide)

/-- In orderly code just the dangling commas are dropped. -/
theorem dropDanglingCommas_pieces {slot : Bool} {pieces : List Piece}
    (noLiteral : ∀ piece ∈ pieces, piece.isLiteral = false)
    (orderly : Orderly slot pieces) :
    dropDanglingCommas (pieces.flatMap Piece.doubled) =
      pieces.flatMap Piece.undangled := by
  induction pieces generalizing slot with
  | nil => rfl
  | cons piece pieces ih =>
      have within : ∀ next ∈ pieces, next.isLiteral = false := fun next member =>
        noLiteral next (List.mem_cons_of_mem piece member)
      have ahead := closes_follower within
      have pass : piece ≠ .mark .comma → piece ≠ .dangling →
          dropDanglingCommas (piece.doubled ++ pieces.flatMap Piece.doubled) =
            piece.doubled ++
              dropDanglingCommas (pieces.flatMap Piece.doubled) :=
        fun noComma noDangling => dropDanglingCommas_code
          (Piece.ne_comma_of_mem (noLiteral piece List.mem_cons_self) noComma
            noDangling) _
      rw [List.flatMap_cons, List.flatMap_cons]
      cases piece with
      | gap filler => rw [pass (by simp) (by simp), ih within orderly]; rfl
      | mark sign =>
          by_cases comma : sign = .comma
          · subst comma
            rw [orderly.1 rfl] at ahead
            simp only [Piece.doubled, Piece.uncommented, Piece.text, Mark.char,
              List.cons_append, List.nil_append, Piece.undangled,
              dropDanglingCommas]
            rw [if_neg (by simp [ahead]), ih within orderly.2]
          · rw [pass (by simpa using comma) (by simp), ih within orderly.2]; rfl
      | dangling =>
          simp only [Piece.doubled, Piece.uncommented, Piece.text,
            List.cons_append, List.nil_append, Piece.undangled,
            dropDanglingCommas]
          rw [if_pos (by simpa using ahead.mpr orderly.1), ih within orderly.2]
      | bare name nonempty allowed =>
          rw [pass (by simp) (by simp), ih within orderly.2.2]; rfl
      | literal quoted =>
          simpa [Piece.isLiteral] using noLiteral _ List.mem_cons_self
      | word spelled => rw [pass (by simp) (by simp), ih within orderly.2]; rfl

/-! ## Bare keys -/

/-- Where a scan for bare keys stands in code. -/
def scanOf (slot : Bool) : KeyScan := if slot then .slot else .elsewhere

theorem quoteSlotKeysFrom_skip {scan : KeyScan} (noKey : scan ≠ .key) {char : Char}
    {rest : List Char} (different : scan = .slot → beginsKey (char :: rest) = false) :
    quoteSlotKeysFrom scan (char :: rest) =
      char :: quoteSlotKeysFrom (scan.afterChar char) rest := by
  cases scan with
  | key => exact absurd rfl noKey
  | elsewhere => simp [quoteSlotKeysFrom]
  | slot => simp [quoteSlotKeysFrom, different rfl]

theorem beginsKey_of_not_key {char : Char} (different : isKeyChar char = false)
    (rest : List Char) : beginsKey (char :: rest) = false := by
  simp [beginsKey, different]

theorem isKeyChar_of_isSeparator {char : Char}
    (separates : isSeparator char = true) : isKeyChar char = false := by
  rcases isSeparator_iff.mp separates with rfl | rfl | rfl | rfl <;> decide

theorem quoteSlotKeysFrom_blanks {blanks : List Char}
    (separates : ∀ char ∈ blanks, isSeparator char = true) (slot : Bool)
    (rest : List Char) :
    quoteSlotKeysFrom (scanOf slot) (blanks ++ rest) =
      blanks ++ quoteSlotKeysFrom (scanOf slot) rest := by
  induction blanks with
  | nil => rfl
  | cons char blanks ih =>
      have first := separates char List.mem_cons_self
      have kept : (scanOf slot).afterChar char = scanOf slot := by
        have blank := isBlank_of_isSeparator first
        rcases isSeparator_iff.mp first with rfl | rfl | rfl | rfl <;> cases slot <;>
          simp [scanOf, KeyScan.afterChar, blank]
      rw [List.cons_append, quoteSlotKeysFrom_skip (by cases slot <;> decide)
        fun _ => beginsKey_of_not_key (isKeyChar_of_isSeparator first) _, kept,
        ih fun next member => separates next (List.mem_cons_of_mem char member),
        List.cons_append]

theorem quoteSlotKeysFrom_mark (sign : Mark) (slot : Bool) (rest : List Char) :
    quoteSlotKeysFrom (scanOf slot) (sign.char :: rest) =
      sign.char :: quoteSlotKeysFrom (scanOf sign.opensSlot) rest := by
  have next : (scanOf slot).afterChar sign.char = scanOf sign.opensSlot := by
    cases sign <;> cases slot <;> decide
  rw [quoteSlotKeysFrom_skip (by cases slot <;> decide)
    fun _ => beginsKey_of_not_key (by cases sign <;> decide) rest, next]

theorem afterChar_of_isWordLetter (scan : KeyScan) {char : Char}
    (letter : isWordLetter char = true) : scan.afterChar char = .elsewhere := by
  have notBrace : char ≠ '{' := ne_of_isWordLetter letter (by decide)
  have notComma : char ≠ ',' := ne_of_isWordLetter letter (by decide)
  simp [KeyScan.afterChar, notBrace, notComma,
    isBlank_eq_false_of_isWordLetter letter]

theorem quoteSlotKeysFrom_letters {letters : List Char}
    (word : ∀ char ∈ letters, isWordLetter char = true) (rest : List Char) :
    quoteSlotKeysFrom .elsewhere (letters ++ rest) =
      letters ++ quoteSlotKeysFrom .elsewhere rest := by
  induction letters with
  | nil => rfl
  | cons char letters ih =>
      have first := word char List.mem_cons_self
      rw [List.cons_append, quoteSlotKeysFrom_skip (by decide) (by simp),
        afterChar_of_isWordLetter _ first,
        ih fun other member => word other (List.mem_cons_of_mem char member),
        List.cons_append]

theorem colonFollows_letters {letters rest : List Char}
    (word : ∀ char ∈ letters, isWordLetter char = true)
    (noColon : colonFollows rest = false) :
    colonFollows (letters ++ rest) = false := by
  cases letters with
  | nil => exact noColon
  | cons char letters =>
      have letter := word char List.mem_cons_self
      rw [List.cons_append, colonFollows,
        firstVisible_cons (isBlank_eq_false_of_isWordLetter letter)]
      simpa using ne_of_isWordLetter letter (by decide)

theorem beginsKey_word {letters rest : List Char}
    (word : ∀ char ∈ letters, isWordLetter char = true)
    (ends : Stops isKeyChar rest) (noColon : colonFollows rest = false) :
    beginsKey (letters ++ rest) = false := by
  have further : colonFollows ((letters ++ rest).dropWhile isKeyChar) = false := by
    rw [dropWhile_append_stops ends]
    exact colonFollows_letters
      (fun char member => word char ((List.dropWhile_suffix _).subset member)) noColon
  simp [beginsKey, further]

theorem quoteSlotKeysFrom_word {letters rest : List Char}
    (nonempty : letters ≠ []) (word : ∀ char ∈ letters, isWordLetter char = true)
    (ends : Stops isKeyChar rest) (noColon : colonFollows rest = false)
    (slot : Bool) :
    quoteSlotKeysFrom (scanOf slot) (letters ++ rest) =
      letters ++ quoteSlotKeysFrom .elsewhere rest := by
  obtain ⟨char, letters, rfl⟩ := List.exists_cons_of_ne_nil nonempty
  have first := word char List.mem_cons_self
  have others := fun next member => word next (List.mem_cons_of_mem char member)
  have noKey : beginsKey (char :: (letters ++ rest)) = false :=
    beginsKey_word word ends noColon
  rw [List.cons_append, quoteSlotKeysFrom_skip (by cases slot <;> decide)
    fun _ => noKey, afterChar_of_isWordLetter _ first,
    quoteSlotKeysFrom_letters others, List.cons_append]

theorem quoteSlotKeysFrom_key {letters : List Char}
    (key : ∀ char ∈ letters, isKeyChar char = true) {char : Char}
    {rest : List Char} (ends : isKeyChar char = false)
    (noSlot : KeyScan.afterChar .key char = .elsewhere) :
    quoteSlotKeysFrom .key (letters ++ char :: rest) =
      letters ++ '"' :: quoteSlotKeysFrom .elsewhere (char :: rest) := by
  induction letters with
  | nil =>
      have same : KeyScan.afterChar .elsewhere char = .elsewhere := by
        simpa [KeyScan.afterChar] using noSlot
      rw [List.nil_append, quoteSlotKeysFrom, if_neg (by simp [ends]), noSlot,
        List.nil_append, quoteSlotKeysFrom_skip (by decide) (by simp), same]
  | cons first letters ih =>
      rw [List.cons_append, quoteSlotKeysFrom,
        if_pos (key first List.mem_cons_self),
        ih fun next member => key next (List.mem_cons_of_mem first member),
        List.cons_append]

theorem endsWord_of_closes {piece : Option Piece} (closing : closes piece = true) :
    endsWord piece = true := by
  cases piece with
  | none => rfl
  | some piece =>
      cases piece with
      | mark sign => cases sign <;> simp_all [closes, endsWord]
      | _ => simp [closes] at closing

/-- What follows a word or a key does not go on with letters of keys. -/
theorem stops_undangled {slot : Bool} {pieces : List Piece}
    (orderly : Orderly slot pieces)
    (ends : endsWord (follower pieces) = true ∨
      follower pieces = some (.mark .colon)) :
    Stops isKeyChar (pieces.flatMap Piece.undangled) := by
  induction pieces generalizing slot with
  | nil => exact stops_nil
  | cons piece pieces ih =>
      rw [List.flatMap_cons]
      cases piece with
      | gap filler =>
          have separators := filler.isSeparator_of_mem
          simp only [Piece.undangled, Piece.doubled, Piece.uncommented]
          cases blanks : filler.blanks with
          | nil => exact ih orderly ends
          | cons char rest =>
              rw [blanks] at separators
              exact stops_cons
                (isKeyChar_of_isSeparator (separators char List.mem_cons_self))
      | mark sign =>
          exact stops_cons (by cases sign <;> decide)
      | dangling => exact ih orderly.2 (.inl (endsWord_of_closes orderly.1))
      | literal quoted =>
          exact stops_cons (show isKeyChar '"' = false by decide)
      | bare name nonempty allowed =>
          rw [follower_cons rfl] at ends
          simp [endsWord] at ends
      | word spelled =>
          rw [follower_cons rfl] at ends
          simp [endsWord] at ends

theorem colonFollows_undangled {slot : Bool} {pieces : List Piece}
    (orderly : Orderly slot pieces)
    (ends : endsWord (follower pieces) = true ∨
      follower pieces = some (.mark .colon)) :
    colonFollows (pieces.flatMap Piece.undangled) = true ↔
      follower pieces = some (.mark .colon) := by
  induction pieces generalizing slot with
  | nil => simp [colonFollows, firstVisible, follower]
  | cons piece pieces ih =>
      rw [List.flatMap_cons]
      cases piece with
      | gap filler =>
          simp only [Piece.undangled, Piece.doubled, Piece.uncommented]
          rw [colonFollows, firstVisible_blanks filler.isBlank_of_mem]
          exact ih orderly ends
      | mark sign =>
          rw [follower_cons rfl]
          simp only [Piece.undangled, Piece.doubled, Piece.uncommented,
            Piece.text, List.cons_append]
          rw [colonFollows, firstVisible_cons (by cases sign <;> decide)]
          cases sign <;> simp [Mark.char]
      | dangling =>
          have closing := orderly.1
          have further := ih orderly.2 (.inl (endsWord_of_closes closing))
          rw [follower_cons rfl]
          simp only [Piece.undangled, List.nil_append, further]
          simp only [Option.some.injEq, reduceCtorEq, iff_false]
          intro colon
          simp [colon, closes] at closing
      | literal quoted =>
          rw [follower_cons rfl]
          simp only [Piece.undangled, Piece.doubled, Literal.text,
            Literal.doubled, Literal.quote_ofLetters, List.cons_append]
          rw [colonFollows, firstVisible_cons (by decide)]
          simp
      | bare name nonempty allowed =>
          rw [follower_cons rfl] at ends
          simp [endsWord] at ends
      | word spelled =>
          rw [follower_cons rfl] at ends
          simp [endsWord] at ends

theorem quoteSlotKeysFrom_bare {name rest : List Char} (nonempty : name ≠ [])
    (allowed : ∀ char ∈ name, isKeyChar char = true)
    (ends : Stops isKeyChar rest) (colon : colonFollows rest = true) :
    quoteSlotKeysFrom .slot (name ++ rest) =
      '"' :: name ++ '"' :: quoteSlotKeysFrom .elsewhere rest := by
  obtain ⟨first, letters, rfl⟩ := List.exists_cons_of_ne_nil nonempty
  have begins : beginsKey (first :: (letters ++ rest)) = true := by
    have remaining := dropWhile_run allowed ends
    rw [List.cons_append] at remaining
    simp [beginsKey, allowed first List.mem_cons_self, remaining, colon]
  obtain ⟨char, others, rfl⟩ : ∃ char others, rest = char :: others := by
    cases rest with
    | nil => simp [colonFollows, firstVisible] at colon
    | cons char others => exact ⟨char, others, rfl⟩
  have noSlot : KeyScan.afterChar .key char = .elsewhere := by
    have notBrace : char ≠ '{' := by
      rintro rfl
      simp [colonFollows, firstVisible, isBlank] at colon
    have notComma : char ≠ ',' := by
      rintro rfl
      simp [colonFollows, firstVisible, isBlank] at colon
    simp [KeyScan.afterChar, notBrace, notComma]
  have opened : quoteSlotKeysFrom .slot (first :: (letters ++ char :: others)) =
      '"' :: first :: quoteSlotKeysFrom .key (letters ++ char :: others) := by
    simp [quoteSlotKeysFrom, begins]
  rw [List.cons_append, opened, quoteSlotKeysFrom_key
      (fun next member => allowed next (List.mem_cons_of_mem first member))
      (ends char (by simp)) noSlot]
  rfl

theorem quoteSlotKeysFrom_pieces {slot : Bool} {pieces : List Piece}
    (noLiteral : ∀ piece ∈ pieces, piece.isLiteral = false)
    (orderly : Orderly slot pieces) :
    quoteSlotKeysFrom (scanOf slot) (pieces.flatMap Piece.undangled) =
      pieces.flatMap Piece.strict := by
  induction pieces generalizing slot with
  | nil => cases slot <;> rfl
  | cons piece pieces ih =>
      have within : ∀ next ∈ pieces, next.isLiteral = false := fun next member =>
        noLiteral next (List.mem_cons_of_mem piece member)
      rw [List.flatMap_cons, List.flatMap_cons]
      cases piece with
      | gap filler =>
          simp only [Piece.undangled, Piece.doubled, Piece.uncommented,
            Piece.strict]
          rw [quoteSlotKeysFrom_blanks filler.isSeparator_of_mem,
            ih within orderly]
      | mark sign =>
          simp only [Piece.undangled, Piece.doubled, Piece.uncommented,
            Piece.text, Piece.strict, List.cons_append, List.nil_append]
          rw [quoteSlotKeysFrom_mark, ih within orderly.2]
      | dangling => exact ih within orderly.2
      | bare name nonempty allowed =>
          obtain ⟨rfl, colon, later⟩ := orderly
          have found := (colonFollows_undangled later (.inr colon)).mpr colon
          have quoted := quoteSlotKeysFrom_bare nonempty allowed
            (stops_undangled later (.inr colon)) found
          simp only [Piece.undangled, Piece.doubled, Piece.uncommented,
            Piece.text, Piece.strict]
          rw [show scanOf true = .slot from rfl, quoted,
            show KeyScan.elsewhere = scanOf false from rfl, ih within later]
          simp
      | literal quoted =>
          simpa [Piece.isLiteral] using noLiteral _ List.mem_cons_self
      | word spelled =>
          obtain ⟨ends, later⟩ := orderly
          have noColon : colonFollows (pieces.flatMap Piece.undangled) = false := by
            have found := colonFollows_undangled later (.inl ends)
            cases follows : colonFollows (pieces.flatMap Piece.undangled) with
            | false => rfl
            | true => simp [found.mp follows, endsWord] at ends
          simp only [Piece.undangled, Piece.doubled, Piece.uncommented,
            Piece.text, Piece.strict]
          rw [quoteSlotKeysFrom_word (text_word_ne_nil spelled)
              (isWordLetter_of_mem_word spelled)
              (stops_undangled later (.inl ends)) noColon,
            show KeyScan.elsewhere = scanOf false from rfl, ih within later]

/-! ## The regular pass -/

theorem repairCode_pieces {pieces : List Piece}
    (noLiteral : ∀ piece ∈ pieces, piece.isLiteral = false)
    (orderly : Orderly false pieces) :
    repairCode (pieces.flatMap Piece.doubled) = pieces.flatMap Piece.strict := by
  rw [repairCode, dropDanglingCommas_pieces noLiteral orderly, quoteSlotKeys,
    show KeyScan.elsewhere = scanOf false from rfl,
    quoteSlotKeysFrom_pieces noLiteral orderly]

/-- A text between pieces is looked at by none of the pieces before it. -/
theorem follower_before_literal (code rest : List Piece) (quoted : Literal) :
    follower (code ++ .literal quoted :: rest) =
      (follower code).or (some (.literal quoted)) := by
  simp [follower, List.find?_append, Piece.isGap]

/-- Orderly pieces are orderly up to a text, and again after it. -/
theorem orderly_around_literal {slot : Bool} {code rest : List Piece}
    {quoted : Literal} (noLiteral : ∀ piece ∈ code, piece.isLiteral = false)
    (orderly : Orderly slot (code ++ .literal quoted :: rest)) :
    Orderly slot code ∧ Orderly false rest := by
  induction code generalizing slot with
  | nil => exact ⟨trivial, orderly⟩
  | cons piece code ih =>
      have within : ∀ next ∈ code, next.isLiteral = false := fun next member =>
        noLiteral next (List.mem_cons_of_mem piece member)
      have ahead := follower_before_literal code rest quoted
      rw [List.cons_append] at orderly
      cases piece with
      | gap filler => exact ih within orderly
      | mark sign =>
          obtain ⟨comma, later⟩ := orderly
          refine ⟨⟨?_, (ih within later).1⟩, (ih within later).2⟩
          intro same
          have := comma same
          rw [ahead] at this
          cases found : follower code <;> simp_all [closes]
      | dangling =>
          obtain ⟨closing, later⟩ := orderly
          refine ⟨⟨?_, (ih within later).1⟩, (ih within later).2⟩
          rw [ahead] at closing
          cases found : follower code <;> simp_all [closes]
      | bare name nonempty allowed =>
          obtain ⟨opened, colon, later⟩ := orderly
          refine ⟨⟨opened, ?_, (ih within later).1⟩, (ih within later).2⟩
          rw [ahead] at colon
          cases found : follower code <;> simp_all
      | literal other => simpa [Piece.isLiteral] using noLiteral _ List.mem_cons_self
      | word spelled =>
          obtain ⟨ends, later⟩ := orderly
          refine ⟨⟨?_, (ih within later).1⟩, (ih within later).2⟩
          rw [ahead] at ends
          cases found : follower code <;> simp_all [endsWord]

/-- In orderly code there is no double quote. -/
theorem noQuote_of_noLiteral {pieces : List Piece}
    (noLiteral : ∀ piece ∈ pieces, piece.isLiteral = false) :
    '"' ∉ pieces.flatMap Piece.doubled := by
  rintro member
  obtain ⟨piece, within, quote⟩ := List.mem_flatMap.mp member
  have different : ∀ literal, piece ≠ .literal literal := by
    rintro literal rfl
    simpa [Piece.isLiteral] using noLiteral _ within
  have same : piece.doubled = piece.uncommented := by
    cases piece <;> first | rfl | exact absurd rfl (different _)
  rw [same] at quote
  simpa [isQuiet] using Piece.isQuiet_of_mem piece different _ quote

/-- The regular pass repairs orderly pieces one by one. -/
theorem mapCode_pieces {pieces : List Piece} (orderly : Orderly false pieces) :
    mapCode repairCode (pieces.flatMap Piece.doubled) =
      pieces.flatMap Piece.strict := by
  -- The pieces since the last text are kept in `code`, which is repaired at
  -- once when the next text is met.
  suffices ∀ code : List Piece, (∀ piece ∈ code, piece.isLiteral = false) →
      Orderly false (code ++ pieces) →
      mapCode repairCode ((code ++ pieces).flatMap Piece.doubled) =
        (code ++ pieces).flatMap Piece.strict from this [] (by simp) orderly
  clear orderly
  induction pieces with
  | nil =>
      intro code noLiteral orderly
      rw [List.append_nil] at orderly ⊢
      rw [mapCode_code rfl (noQuote_of_noLiteral noLiteral),
        repairCode_pieces noLiteral orderly]
  | cons piece pieces ih =>
      intro code noLiteral orderly
      cases literal : piece.isLiteral with
      | false =>
          have next := ih (code ++ [piece]) (by
            intro other member
            rcases List.mem_append.mp member with before | last
            · exact noLiteral other before
            · rw [List.mem_singleton.mp last]
              exact literal)
          simp only [List.append_assoc, List.singleton_append] at next
          exact next orderly
      | true =>
          obtain ⟨quoted, rfl⟩ : ∃ quoted, piece = .literal quoted := by
            cases piece <;> simp_all [Piece.isLiteral]
          obtain ⟨before, after⟩ := orderly_around_literal noLiteral orderly
          have later := ih [] (by simp) after
          rw [List.nil_append] at later
          have split := mapCode_literal repairCode rfl
            (noQuote_of_noLiteral noLiteral) quoted.doubled.literalBody
            (pieces.flatMap Piece.doubled)
          rw [List.flatMap_append, List.flatMap_append, List.flatMap_cons,
            List.flatMap_cons, ← repairCode_pieces noLiteral before, ← later]
          simpa [Piece.strict, Piece.undangled, Piece.doubled, Literal.text,
            Literal.doubled] using split

/-- The regular pass, after the removal of comments, makes orderly pieces strict
JSON. -/
theorem normalize_pieces {pieces : List Piece} (orderly : Orderly false pieces) :
    normalize (stripComments documentQuotes (pieces.flatMap Piece.text)) =
      pieces.flatMap Piece.strict := by
  rw [stripComments_pieces, normalize, convertSingleQuotes_pieces,
    mapCode_pieces orderly]

end TwinSchema.Relaxed
