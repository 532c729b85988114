import TwinSchema.Proofs.Relaxed.Repair

/-!
# Segments of strict documents

A document in strict JSON falls into blanks, marks, texts and words. A worn one
does so as well: there a comma may be lost at the end of a line, and a word may
be spelled as another notation has it. This module says which segment may stand
where, and shows that the regular pass changes nothing where that is kept.
-/

namespace TwinSchema.Relaxed

open Json Text

/-- The named values of JSON with the names that they have elsewhere. -/
def foreignSpellings : List (List Char × List Char) := [
  ("true".toList, "True".toList),
  ("false".toList, "False".toList),
  ("null".toList, "None".toList),
  ("null".toList, "undefined".toList)
]

/-- A segment of a document. Where a comma was lost, the line feed that followed
it remains. -/
inductive Segment where
  | blank (char : Char) (separates : isSeparator char = true)
  | mark (sign : Mark)
  | literal (body : List Char) (inside : LiteralBody '"' body)
  | word (meant : Word) (spelled : List Char)
      (known : spelled = meant.text ∨ (meant.text, spelled) ∈ foreignSpellings)
  | lost

namespace Segment

def text : Segment → List Char
  | .blank char _ => [char]
  | .mark sign => [sign.char]
  | .literal body _ => '"' :: body ++ ['"']
  | .word _ spelled _ => spelled
  | .lost => ['\n']

/-- The characters of a segment that is restored. -/
def strict : Segment → List Char
  | .word meant _ _ => meant.text
  | .lost => [',', '\n']
  | segment => segment.text

/-- The segment with its word spelled as in JSON. -/
def respelled : Segment → Segment
  | .word meant _ _ => .word meant meant.text (.inl rfl)
  | segment => segment

def isVisible : Segment → Bool
  | .blank _ _ => false
  | .lost => false
  | _ => true

theorem strict_of_isVisible {segment : Segment} (visible : segment.isVisible = true) :
    segment.strict = segment.respelled.text := by
  cases segment with
  | blank | lost => cases visible
  | _ => rfl

/-- Whether a segment is a text. -/
def isLiteral : Segment → Bool
  | .literal _ _ => true
  | _ => false

end Segment

/-- What separates a place from the last visible character. -/
inductive Between where
  | nothing
  | blanks
  | lostComma
  deriving DecidableEq

/-- A place between segments, known by what stands before it. -/
structure Spot where
  last : Option Char
  between : Between

/-- The place at the beginning of a document. -/
def Spot.start : Spot := ⟨none, .nothing⟩

/-- What separates a place from the last visible character, after a blank. -/
def Between.spaced : Between → Between
  | .lostComma => .lostComma
  | _ => .blanks

/-- The place after one more segment. -/
def Spot.after (spot : Spot) : Segment → Spot
  | .blank _ _ => ⟨spot.last, spot.between.spaced⟩
  | .mark sign => ⟨some sign.char, .nothing⟩
  | .literal _ _ => ⟨some '"', .nothing⟩
  | .word meant _ _ => ⟨meant.text.getLast?, .nothing⟩
  | .lost => ⟨spot.last, .lostComma⟩

def Spot.awaitsValue (spot : Spot) : Bool :=
  spot.between == .lostComma ||
    spot.last.all fun char => char ∈ ['{', '[', ',', ':']

/-- A blank changes nothing about that. -/
theorem awaitsValue_blank (spot : Spot) (char : Char) (separates : isSeparator char = true)
    (awaits : spot.awaitsValue = true) :
    (spot.after (.blank char separates)).awaitsValue = true := by
  rw [Spot.awaitsValue, Bool.or_eq_true] at awaits ⊢
  refine awaits.imp (fun lost => ?_) id
  rw [beq_iff_eq] at lost
  simp [Spot.after, Between.spaced, lost]

/-- Whether a mark may stand at a place: no bracket closes after a comma, and a
colon follows a text. -/
def Mark.fits (spot : Spot) : Mark → Bool
  | .openRecord | .openList => spot.awaitsValue
  | .closeRecord | .closeList =>
      spot.between != .lostComma && spot.last != some ','
  | .comma => spot.between != .lostComma
  | .colon => spot.between != .lostComma && spot.last == some '"'

/-- Whether a segment may stand at a spot. A comma is lost only between values
that are known by their last and first characters. -/
def Segment.Fits (spot : Spot) : Segment → Prop
  | .blank _ _ => True
  | .mark sign => sign.fits spot = true
  | .literal _ _ => spot.awaitsValue = true
  | .word meant _ _ => spot.awaitsValue = true ∧
      (spot.between = .lostComma → meant.text.head?.any beginsValue = true)
  | .lost => spot.between = .nothing ∧ spot.last.any endsValue = true

/-- Whether each of several segments may stand where it does. -/
def Ordered : Spot → List Segment → Prop
  | _, [] => True
  | spot, segment :: rest => segment.Fits spot ∧ Ordered (spot.after segment) rest

/-- The place after several segments. -/
def Spot.afterAll (spot : Spot) (segments : List Segment) : Spot :=
  segments.foldl Spot.after spot

theorem ordered_append {spot : Spot} {front back : List Segment} :
    Ordered spot (front ++ back) ↔
      Ordered spot front ∧ Ordered (spot.afterAll front) back := by
  induction front generalizing spot with
  | nil => simp [Ordered, Spot.afterAll]
  | cons segment front ih =>
      simp only [List.cons_append, Ordered, ih, and_assoc]
      rfl

theorem foreignSpellings_cases {strict foreign : List Char}
    (spelling : (strict, foreign) ∈ foreignSpellings) :
    (strict = "true".toList ∧ foreign = "True".toList) ∨
      (strict = "false".toList ∧ foreign = "False".toList) ∨
      (strict = "null".toList ∧ foreign = "None".toList) ∨
      (strict = "null".toList ∧ foreign = "undefined".toList) := by
  simpa only [foreignSpellings, List.mem_cons, Prod.mk.injEq, List.not_mem_nil,
    or_false] using spelling

theorem foreign_spelling {strict foreign : List Char}
    (spelling : (strict, foreign) ∈ foreignSpellings) :
    foreignLiteral? foreign = some strict ∧ foreign ≠ [] ∧
      (∀ char ∈ foreign, isWordLetter char = true) ∧
      ∀ char ∈ foreign, isNamePart char = true := by
  rcases foreignSpellings_cases spelling with
    ⟨rfl, rfl⟩ | ⟨rfl, rfl⟩ | ⟨rfl, rfl⟩ | ⟨rfl, rfl⟩ <;>
    exact ⟨rfl, by decide, List.all_eq_true.mp (by decide),
      List.all_eq_true.mp (by decide)⟩

theorem letters_of_known {word : Word} {spelled : List Char}
    (known : spelled = word.text ∨ (word.text, spelled) ∈ foreignSpellings) :
    spelled ≠ [] ∧ ∀ char ∈ spelled, isWordLetter char = true := by
  rcases known with rfl | foreign
  · exact ⟨text_word_ne_nil word, isWordLetter_of_mem_word word⟩
  · obtain ⟨-, nonempty, letters, -⟩ := foreign_spelling foreign
    exact ⟨nonempty, letters⟩

theorem exists_last (word : Word) :
    ∃ char, word.text.getLast? = some char ∧ isWordLetter char = true := by
  have nonempty := text_word_ne_nil word
  exact ⟨_, List.getLast?_eq_some_getLast nonempty,
    isWordLetter_of_mem_word word _ (List.getLast_mem nonempty)⟩

theorem awaitsValue_word (word : Word) :
    Spot.awaitsValue ⟨word.text.getLast?, .nothing⟩ = false := by
  obtain ⟨char, last, letter⟩ := exists_last word
  have different : ∀ other ∈ ['{', '[', ',', ':'], char ≠ other := by
    intro other member
    refine ne_of_isWordLetter letter ?_
    simp only [List.mem_cons, List.not_mem_nil, or_false] at member
    rcases member with rfl | rfl | rfl | rfl <;> rfl
  have apart : char ∉ ['{', '[', ',', ':'] := fun member =>
    different char member rfl
  simpa [Spot.awaitsValue, last] using apart

theorem noText_word (word : Word) : word.text.getLast? ≠ some '"' := by
  obtain ⟨char, last, letter⟩ := exists_last word
  rw [last, ne_eq, Option.some.injEq]
  exact ne_of_isWordLetter letter rfl

/-! ## What stands next -/

theorem Mark.char_inj {first second : Mark} (same : first.char = second.char) :
    first = second := by
  cases first <;> cases second <;> first | rfl | cases same

theorem Mark.isBlank_char (sign : Mark) : isBlank sign.char = false := by
  cases sign <;> rfl

theorem Mark.isWordLetter_char (sign : Mark) : isWordLetter sign.char = false := by
  cases sign <;> rfl

section Neighbours

variable {spot : Spot} {segments : List Segment}

/-- A mark that is the next visible character fits, whatever separates it from
the last one. -/
theorem fits_of_firstVisible (ordered : Ordered spot segments) {sign : Mark}
    (next : firstVisible (segments.flatMap Segment.text) = some sign.char) :
    ∃ between, sign.fits ⟨spot.last, between⟩ = true := by
  induction segments generalizing spot with
  | nil => cases next
  | cons segment segments ih =>
      obtain ⟨fits, later⟩ := ordered
      rw [List.flatMap_cons] at next
      cases segment with
      | blank char separates =>
          rw [Segment.text, firstVisible_blanks
            (by simpa using isBlank_of_isSeparator separates)] at next
          have found := ih later next
          exact found
      | mark other =>
          rw [Segment.text, List.singleton_append,
            firstVisible_cons other.isBlank_char, Option.some.injEq] at next
          rw [← Mark.char_inj next]
          exact ⟨spot.between, fits⟩
      | literal body inside =>
          rw [Segment.text, List.cons_append, List.cons_append,
            firstVisible_cons (by decide), Option.some.injEq] at next
          cases sign <;> cases next
      | word meant spelled known =>
          obtain ⟨nonempty, letters⟩ := letters_of_known known
          obtain ⟨char, rest, rfl⟩ := List.exists_cons_of_ne_nil nonempty
          have letter := letters char List.mem_cons_self
          rw [Segment.text, List.cons_append,
            firstVisible_cons (isBlank_eq_false_of_isWordLetter letter),
            Option.some.injEq] at next
          rw [next, sign.isWordLetter_char] at letter
          cases letter
      | lost =>
          rw [Segment.text, firstVisible_blanks (List.forall_mem_singleton.mpr rfl)] at next
          have found := ih later next
          exact found

theorem not_closing_of_comma (ordered : Ordered spot segments)
    (comma : spot.last = some ',') :
    ¬(firstVisible (segments.flatMap Segment.text) = some '}' ∨
      firstVisible (segments.flatMap Segment.text) = some ']') := by
  rintro (next | next)
  · obtain ⟨between, fits⟩ :=
      fits_of_firstVisible ordered (show _ = some Mark.closeRecord.char from next)
    simp [Mark.fits, comma] at fits
  · obtain ⟨between, fits⟩ :=
      fits_of_firstVisible ordered (show _ = some Mark.closeList.char from next)
    simp [Mark.fits, comma] at fits

theorem colonFollows_text (ordered : Ordered spot segments)
    (noText : spot.last ≠ some '"') :
    colonFollows (segments.flatMap Segment.text) = false := by
  rw [colonFollows, beq_eq_false_iff_ne]
  intro next
  obtain ⟨between, fits⟩ :=
    fits_of_firstVisible ordered (show _ = some Mark.colon.char from next)
  simp [Mark.fits, noText] at fits

/-- Where no value begins, a word does not go on. -/
theorem stops_text (ordered : Ordered spot segments)
    (noValue : spot.awaitsValue = false) {test : Char → Bool}
    (blanks : ∀ {char}, isSeparator char = true → test char = false)
    (marks : ∀ sign : Mark, test sign.char = false) :
    Stops test (segments.flatMap Segment.text) := by
  cases segments with
  | nil => exact stops_nil
  | cons segment segments =>
      obtain ⟨fits, -⟩ := ordered
      cases segment with
      | blank char separates => exact stops_cons (blanks separates)
      | mark sign => exact stops_cons (marks sign)
      | literal body inside =>
          rw [Segment.Fits, noValue] at fits
          cases fits
      | word meant spelled known =>
          rw [Segment.Fits, noValue] at fits
          cases fits.1
      | lost => exact stops_cons (blanks rfl)

end Neighbours

namespace Segment

theorem isQuiet_of_mem {segment : Segment} (noLiteral : segment.isLiteral = false) :
    ∀ char ∈ segment.text, isQuiet char = true := by
  cases segment with
  | blank char separates => simpa [text] using isQuiet_of_isSeparator separates
  | mark sign => cases sign <;> simp [text, Mark.char] <;> decide
  | literal body inside => cases noLiteral
  | word meant spelled known =>
      exact fun char member =>
        isQuiet_of_isWordLetter ((letters_of_known known).2 char member)
  | lost => simp [text]; decide

theorem stripFrom_text (segment : Segment) (rest : List Char) :
    stripFrom documentQuotes (.text .code) (segment.text ++ rest) =
      segment.text ++ stripFrom documentQuotes (.text .code) rest := by
  cases literal : segment.isLiteral with
  | false => exact stripFrom_quiet (isQuiet_of_mem literal) rest
  | true =>
      cases segment with
      | literal body inside =>
          have passed :
              stripFrom documentQuotes (.text .code) ('"' :: (body ++ '"' :: rest)) =
                '"' :: (body ++ '"' :: stripFrom documentQuotes (.text .code) rest) :=
            stripFrom_literal inside (by decide) (by decide) rest
          simpa [text] using passed
      | _ => cases literal

theorem requote_text (segment : Segment) (rest : List Char) :
    requote .outside (segment.text ++ rest) =
      segment.text ++ requote .outside rest := by
  cases literal : segment.isLiteral with
  | false => exact requote_quiet (isQuiet_of_mem literal) rest
  | true =>
      cases segment with
      | literal body inside =>
          simp only [text, List.cons_append, List.append_assoc, List.nil_append]
          rw [requote, if_pos rfl, requote_double_body inside]
      | _ => cases literal

end Segment

theorem stripComments_segments (segments : List Segment) :
    stripComments documentQuotes (segments.flatMap Segment.text) =
      segments.flatMap Segment.text := by
  induction segments with
  | nil => rfl
  | cons segment segments ih =>
      rw [List.flatMap_cons, stripComments, Segment.stripFrom_text, ← stripComments,
        ih]

theorem convertSingleQuotes_segments (segments : List Segment) :
    convertSingleQuotes (segments.flatMap Segment.text) =
      segments.flatMap Segment.text := by
  induction segments with
  | nil => rfl
  | cons segment segments ih =>
      rw [List.flatMap_cons, convertSingleQuotes, Segment.requote_text,
        ← convertSingleQuotes, ih]

section Code

variable {spot : Spot} {segments : List Segment}

theorem notMem_of_noLiteral
    (noLiteral : ∀ segment ∈ segments, segment.isLiteral = false) :
    '"' ∉ segments.flatMap Segment.text := by
  intro member
  obtain ⟨segment, within, quote⟩ := List.mem_flatMap.mp member
  cases Segment.isQuiet_of_mem (noLiteral segment within) _ quote

/-- A change of code that acts on ordered segments one by one does so in the
whole document. -/
theorem mapCode_segments {change : List Char → List Char} (empty : change [] = [])
    {out : Segment → List Char}
    (quoted : ∀ segment, segment.isLiteral = true → out segment = segment.text)
    (changed : ∀ {spot code}, Ordered spot code →
      (∀ segment ∈ code, segment.isLiteral = false) →
      change (code.flatMap Segment.text) = code.flatMap out)
    (ordered : Ordered spot segments) :
    mapCode change (segments.flatMap Segment.text) = segments.flatMap out := by
  -- The segments since the last text are kept in `code`, which is changed at
  -- once when the next text is met.
  suffices ∀ spot code, (∀ segment ∈ code, segment.isLiteral = false) →
      Ordered spot (code ++ segments) →
      mapCode change ((code ++ segments).flatMap Segment.text) =
        (code ++ segments).flatMap out from this spot [] (by simp) ordered
  clear ordered
  induction segments with
  | nil =>
      intro spot code noLiteral ordered
      rw [List.append_nil] at ordered ⊢
      rw [mapCode_code empty (notMem_of_noLiteral noLiteral),
        changed ordered noLiteral]
  | cons segment segments ih =>
      intro spot code noLiteral ordered
      cases literal : segment.isLiteral with
      | false =>
          have next := ih spot (code ++ [segment]) (by
            intro other member
            rcases List.mem_append.mp member with before | last
            · exact noLiteral other before
            · rw [List.mem_singleton.mp last]
              exact literal)
          rw [List.append_assoc, List.singleton_append] at next
          exact next ordered
      | true =>
          obtain ⟨before, -, after⟩ := ordered_append.mp ordered
          have later := ih _ [] (by simp) after
          rw [List.nil_append] at later
          have same := quoted segment literal
          cases segment with
          | literal body inside =>
              have split := mapCode_literal change empty
                (notMem_of_noLiteral noLiteral) inside
                (segments.flatMap Segment.text)
              rw [List.flatMap_append, List.flatMap_append, List.flatMap_cons,
                List.flatMap_cons, ← changed before noLiteral, ← later, same]
              simpa [Segment.text] using split
          | _ => cases literal

/-- In ordered code no comma dangles. -/
theorem dropDanglingCommas_segments (ordered : Ordered spot segments)
    (noLiteral : ∀ segment ∈ segments, segment.isLiteral = false) :
    dropDanglingCommas (segments.flatMap Segment.text) =
      segments.flatMap Segment.text := by
  induction segments generalizing spot with
  | nil => rfl
  | cons segment segments ih =>
      obtain ⟨fits, later⟩ := ordered
      obtain ⟨first, others⟩ := List.forall_mem_cons.mp noLiteral
      have same := ih later others
      have pass (noComma : ∀ char ∈ segment.text, char ≠ ',') :
          dropDanglingCommas (segment.text ++ segments.flatMap Segment.text) =
            segment.text ++ segments.flatMap Segment.text := by
        rw [dropDanglingCommas_code noComma, same]
      rw [List.flatMap_cons]
      cases segment with
      | blank char separates =>
          refine pass fun other member => ?_
          rw [List.mem_singleton.mp member]
          rintro rfl
          cases separates
      | mark sign =>
          by_cases comma : sign = .comma
          · subst comma
            rw [Segment.text, List.singleton_append, dropDanglingCommas,
              if_neg fun dangling => not_closing_of_comma later rfl dangling.2,
              same]
          · refine pass fun other member => ?_
            rw [List.mem_singleton.mp member]
            exact fun sameChar =>
              comma (Mark.char_inj (show sign.char = Mark.comma.char from sameChar))
      | literal body inside => cases first
      | word meant spelled known =>
          exact pass fun char member =>
            ne_of_isWordLetter ((letters_of_known known).2 char member) (by decide)
      | lost => exact pass (by simp [Segment.text])

/-- In ordered code no key is bare. -/
theorem quoteSlotKeysFrom_segments (ordered : Ordered spot segments)
    (noLiteral : ∀ segment ∈ segments, segment.isLiteral = false) (slot : Bool) :
    quoteSlotKeysFrom (scanOf slot) (segments.flatMap Segment.text) =
      segments.flatMap Segment.text := by
  induction segments generalizing spot slot with
  | nil => cases slot <;> rfl
  | cons segment segments ih =>
      obtain ⟨fits, later⟩ := ordered
      obtain ⟨first, others⟩ := List.forall_mem_cons.mp noLiteral
      rw [List.flatMap_cons]
      cases segment with
      | blank char separates =>
          rw [Segment.text, quoteSlotKeysFrom_blanks (by simpa using separates),
            ih later others]
      | mark sign =>
          rw [Segment.text, List.singleton_append, quoteSlotKeysFrom_mark,
            ih later others]
      | literal body inside => cases first
      | word meant spelled known =>
          obtain ⟨nonempty, letters⟩ := letters_of_known known
          have ends : Stops isKeyChar (segments.flatMap Segment.text) :=
            stops_text later (awaitsValue_word meant) isKeyChar_of_isSeparator
              fun sign => by cases sign <;> rfl
          have noColon := colonFollows_text later (noText_word meant)
          rw [Segment.text, quoteSlotKeysFrom_word nonempty letters ends noColon]
          congr 1
          exact ih later others false
      | lost =>
          rw [Segment.text,
            quoteSlotKeysFrom_blanks (List.forall_mem_singleton.mpr rfl), ih later others]

theorem repairCode_segments (ordered : Ordered spot segments)
    (noLiteral : ∀ segment ∈ segments, segment.isLiteral = false) :
    repairCode (segments.flatMap Segment.text) = segments.flatMap Segment.text := by
  rw [repairCode, dropDanglingCommas_segments ordered noLiteral, quoteSlotKeys,
    show KeyScan.elsewhere = scanOf false from rfl,
    quoteSlotKeysFrom_segments ordered noLiteral]

/-- The regular pass leaves ordered segments as they are. -/
theorem normalize_segments (ordered : Ordered spot segments) :
    normalize (segments.flatMap Segment.text) = segments.flatMap Segment.text := by
  rw [normalize, convertSingleQuotes_segments]
  exact mapCode_segments rfl (fun _ _ => rfl) repairCode_segments ordered

end Code

end TwinSchema.Relaxed
