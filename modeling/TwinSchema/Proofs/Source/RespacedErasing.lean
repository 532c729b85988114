import TwinSchema.Proofs.Source.Preface
import TwinSchema.Proofs.Source.RespacedPreamble

/-!
# Respaced statements

Each form of statement that is erased in front of source text is a word and what
follows it. Where no statement is in a literal or behind blanks that the layout sets,
and each ends at the level where it began, erasing them leaves texts that are spaced
anew.
-/

namespace TwinSchema.Source

open Json Text
open Relaxed (isBlank_of_isSeparator)

variable {kept : Bool} {place : Place} {first second : List Char}

/-- A form of statement: the word it begins with behind the blanks of its line, what
follows the word up to the end of the statement, and whether this means the same in any
spacing. -/
structure StatementForm where
  word? : List Char → Option (List Char)
  body? : List Char → Option (List Char)
  keeps : List Char → Bool

namespace StatementForm

/-- The text behind a statement. -/
def find? (form : StatementForm) (text : List Char) : Option (List Char) :=
  ((form.word? (text.dropWhile isInlineBlank)).bind form.body?).map statementEnd

/-- Imports of names. -/
def ofNames : StatementForm where
  word? := dropWord? "import".toList
  body? rest := (blanks? rest).bind (fromClause? ' ')
  keeps rest := clausesInCode .code ' ' (trimLeft rest)

/-- Imports of a module alone. -/
def ofModule : StatementForm where
  word? := dropWord? "import".toList
  body? rest := (blanks? rest).bind moduleName?
  keeps _ := true

/-- What follows the names that a required module is bound to. -/
def bound? (text : List Char) : Option (List Char) :=
  (binding? text).bind (dropChar? '=')

/-- What follows a call that requires a module. -/
def requiredModule? (text : List Char) : Option (List Char) :=
  (dropWord? "require(".toList (trimLeft text)).bind fun rest =>
    (moduleName? (trimLeft rest)).bind fun rest => dropChar? ')' (trimLeft rest)

/-- Bindings of required modules. -/
def ofRequired : StatementForm where
  word? := declaringWord?
  body? rest := (bound? rest).bind requiredModule?
  keeps _ := true

theorem find?_ofNames : ofNames.find? = importFrom? := by
  funext text
  rw [find?, importFrom?, importWord?, Option.bind_assoc]
  rfl

theorem find?_ofModule : ofModule.find? = importModule? := by
  funext text
  rw [find?, importModule?, importWord?, Option.bind_assoc]
  rfl

theorem find?_ofRequired : ofRequired.find? = requireCall? := by
  funext text
  simp only [find?, ofRequired, requireCall?, bound?, requiredModule?, Option.bind_assoc,
    Option.map_eq_bind, Option.bind_eq_bind, Option.pure_def]
  rfl

end StatementForm

/-- A text and its rest behind a character other than a line feed. -/
def EndsInLine (text rest : List Char) : Prop :=
  ∃ before last, last ≠ '\n' ∧ text = before ++ last :: rest

namespace EndsInLine

variable {text rest : List Char}

theorem prepend (ends : EndsInLine text rest) (before : List Char) :
    EndsInLine (before ++ text) rest := by
  obtain ⟨between, last, inline, rfl⟩ := ends
  exact ⟨before ++ between, last, inline, (List.append_assoc _ _ _).symm⟩

theorem of_trimLeft (ends : EndsInLine (trimLeft text) rest) : EndsInLine text rest := by
  have whole := ends.prepend (text.takeWhile isBlank)
  rwa [trimLeft, List.takeWhile_append_dropWhile] at whole

theorem of_dropChar? {expected : Char} (inline : expected ≠ '\n')
    (dropped : dropChar? expected text = some rest) : EndsInLine text rest :=
  ⟨[], expected, inline, dropChar?_eq_some dropped⟩

/-- Behind blanks of the same line. -/
theorem append {blanks : List Char} (inline : ∀ char ∈ blanks, isInlineBlank char = true)
    (ends : EndsInLine text (blanks ++ rest)) : EndsInLine text rest := by
  induction blanks generalizing text with
  | nil => exact ends
  | cons blank blanks ih =>
      rw [List.forall_mem_cons] at inline
      obtain ⟨before, last, -, rfl⟩ := ends
      refine ih inline.2 ⟨before ++ [last], blank, ?_, by simp⟩
      rintro rfl
      cases inline.1

theorem length_lt (ends : EndsInLine text rest) : rest.length < text.length := by
  obtain ⟨before, last, -, rfl⟩ := ends
  simp only [List.length_append, List.length_cons]
  omega

theorem statementEnd (ends : EndsInLine text rest) :
    EndsInLine text (Source.statementEnd rest) := by
  have spaced : EndsInLine text (rest.dropWhile isInlineBlank) := by
    rw [← rest.takeWhile_append_dropWhile (p := isInlineBlank)] at ends
    exact ends.append fun _ member => List.mem_takeWhile_imp member
  rw [Source.statementEnd]
  cases dropped : dropChar? ';' (rest.dropWhile isInlineBlank) with
  | none => exact spaced
  | some behind =>
      obtain ⟨before, last, inline, whole⟩ := spaced
      refine ⟨before ++ [last], ';', by decide, ?_⟩
      rw [whole, dropChar?_eq_some dropped]
      simp

theorem of_moduleEnd? (found : moduleEnd? text = some rest) : EndsInLine text rest := by
  induction text with
  | nil => cases found
  | cons char text ih =>
      rw [moduleEnd?] at found
      split at found
      next quotes =>
        cases found
        refine ⟨[], char, ?_, rfl⟩
        rintro rfl
        cases quotes
      next =>
        split at found
        next => cases found
        next => exact (ih found).prepend [char]

theorem of_moduleName? (found : moduleName? text = some rest) : EndsInLine text rest := by
  cases text with
  | nil => cases found
  | cons quote text =>
      rw [moduleName?_cons] at found
      split at found
      next => exact (of_moduleEnd? found).prepend [quote]
      next => cases found

theorem of_blanks?_bind {form : List Char → Option (List Char)}
    (found : (blanks? text).bind form = some rest)
    (ends : ∀ {behind}, form behind = some rest → EndsInLine behind rest) :
    EndsInLine text rest := by
  obtain ⟨behind, skipped, reached⟩ := Option.bind_eq_some_iff.mp found
  obtain ⟨gap, -, -, rfl, -⟩ := blanks?_eq_some skipped
  exact (ends reached).prepend gap

theorem of_fromClause? {previous : Char} (found : fromClause? previous text = some rest) :
    EndsInLine text rest := by
  induction text generalizing previous with
  | nil => cases found
  | cons char text ih =>
      rw [fromClause?_cons] at found
      cases here : clauseHere? previous (char :: text) with
      | none =>
          rw [here, Option.none_or] at found
          split at found
          next => cases found
          next => exact (ih found).prepend [char]
      | some after =>
          rw [here, Option.some_or] at found
          cases found
          rw [clauseHere?] at here
          split at here
          next => cases here
          next =>
            rw [Option.bind_assoc] at here
            obtain ⟨behind, word, named⟩ := Option.bind_eq_some_iff.mp here
            rw [dropWord?_eq_some word]
            exact (of_blanks?_bind named of_moduleName?).prepend _

end EndsInLine

/-! ## Forms in any spacing -/

/-- A form of statement that finds the same in any spacing: its word begins neither with
a blank nor with a closing sign, and what follows the word ends where no line ends. -/
structure StatementForm.Lawful (form : StatementForm) : Prop where
  word_blank {char : Char} (blank : isBlank char = true) (rest : List Char) :
    form.word? (char :: rest) = none
  word_closing {text : List Char} (closing : beforeClosing text = true) :
    form.word? text = none
  word {kept : Bool} {place : Place} {first second : List Char}
    (ready : Respaced.Ready place first second) (related : Respaced kept place first second) :
    Option.Rel (BehindWord kept place first) (form.word? first) (form.word? second)
  body {kept : Bool} {place : Place} {first second : List Char}
    (code : place.cursor = .code) (steady : place.Steady)
    (apart : beforeClosing first = false) (keeps : form.keeps first = true)
    (related : Respaced kept place first second) :
    Option.Rel (BehindToken kept place first) (form.body? first) (form.body? second)
  ends {text rest : List Char} (found : form.body? text = some rest) : EndsInLine text rest

namespace Respaced

/-- Both texts begin with blanks or neither does, where no closing sign follows. -/
theorem blanks?_apart (steady : place.Steady) (apart : beforeClosing first = false)
    (related : Respaced kept place first second) :
    Option.Rel (fun one other => one = Text.trimLeft first ∧ other = Text.trimLeft second)
      (blanks? first) (blanks? second) := by
  obtain ⟨char, tail, other, rfl, rfl, -⟩ := related.cases_steady steady apart
  rw [blanks?, blanks?]
  split
  next blank => exact .some (by simp [Text.trimLeft, blank])
  next => exact .none

theorem behindChar {expected : Char} (solid : isSolid expected = true)
    (ready : Ready place first second) (related : Respaced kept place first second) :
    Option.Rel (BehindToken kept place first) (Text.dropChar? expected first)
      (Text.dropChar? expected second) :=
  relMono (relKnown (related.dropChar? solid ready)) fun found =>
    ⟨[expected], dropChar?_eq_some found.1, Place.steady_advance solid place, found.2⟩

end Respaced

/-- Names are bound behind a blank. -/
theorem binding?_cons (char : Char) (rest : List Char) :
    binding? (char :: rest) =
      if isBlank char && rest.head?.any isBindingChar then
        some (rest.dropWhile isBindingChar)
      else none := by
  cases blank : isBlank char with
  | false =>
      rw [binding?_eq_none (by simp [blanks?, blank])]
      rfl
  | true =>
      have inside : isBindingChar char = true := by simp [isBindingChar, blank]
      cases rest with
      | nil => simp [binding?, inside, blank]
      | cons next rest => cases named : isBindingChar next <;> simp [binding?, inside, blank, named]

/-- No literal opens among the names that a required module is bound to. -/
theorem not_mem_of_isBindingChar {char : Char} (inside : isBindingChar char = true) :
    char ∉ sourceQuotes := by
  simp only [sourceQuotes, List.mem_cons, List.not_mem_nil, or_false]
  rintro (rfl | rfl | rfl) <;> cases inside

theorem Place.cursor_after_plain {text : List Char} (code : place.cursor = .code)
    (plain : ∀ char ∈ text, char ∉ sourceQuotes) : (place.after text).cursor = .code := by
  rw [Place.cursor_after, code]
  induction text with
  | nil => rfl
  | cons char text ih =>
      rw [List.forall_mem_cons] at plain
      rw [Cursor.after, List.foldl_cons, Cursor.advance, if_neg plain.1]
      exact ih plain.2

theorem isBindingChar_of_isBlank (char : Char) (blank : isBlank char = true) :
    isBindingChar char = true := by
  simp [isBindingChar, blank]

theorem stops_binding (text : List Char) : Stops isBlank (text.dropWhile isBindingChar) := by
  intro char member
  have outside := stops_dropWhile isBindingChar text char member
  rw [Bool.eq_false_iff]
  intro blank
  rw [isBindingChar_of_isBlank char blank] at outside
  cases outside

/-- Rests of two texts in code. -/
def BehindCode (kept : Bool) (place : Place) (text one other : List Char) : Prop :=
  ∃ before, text = before ++ one ∧ (place.after before).cursor = .code ∧
    Respaced kept (place.after before) one other

namespace Respaced

open StatementForm (requiredModule?)

/-- In code both texts bind names or neither does. -/
theorem bound? (code : place.cursor = .code) (steady : place.Steady)
    (apart : beforeClosing first = false) (related : Respaced kept place first second) :
    Option.Rel (BehindCode kept place first) (StatementForm.bound? first)
      (StatementForm.bound? second) := by
  obtain ⟨char, tail, other, rfl, rfl, rest⟩ := related.cases_steady steady apart
  rw [StatementForm.bound?, StatementForm.bound?, binding?_cons, binding?_cons]
  cases blank : isBlank char with
  | false => exact .none
  | true =>
      rw [beforeClosing_blank blank] at apart
      rw [Place.advance_blank code blank] at rest
      obtain ⟨next, inner, others, rfl, rfl, -⟩ := rest.cases_steady steady apart
      rw [Bool.true_and, List.head?_cons, Bool.true_and, List.head?_cons]
      split
      next =>
        have named := rest.dropWhile isBindingChar_of_isBlank
        have inCode : (place.after ((next :: inner).takeWhile isBindingChar)).cursor = .code :=
          Place.cursor_after_plain code fun _ member =>
            not_mem_of_isBindingChar (List.mem_takeWhile_imp member)
        have sign := named.dropChar? (by decide : isSolid '=' = true)
          (.inr ⟨stops_binding _, stops_binding _⟩)
        rw [Option.bind_some, Option.bind_some]
        refine relMono (relKnown sign) fun found => ?_
        refine ⟨char :: ((next :: inner).takeWhile isBindingChar ++ ['=']), ?_, ?_⟩
        · rw [List.cons_append, List.append_assoc, List.singleton_append,
            ← dropChar?_eq_some found.1, List.takeWhile_append_dropWhile]
        · rw [Place.after_cons, Place.advance_blank code blank, Place.after_append,
            Place.after_cons, Place.after_nil]
          refine ⟨?_, found.2⟩
          rw [Place.advance_solid inCode (by decide)]
          exact inCode
      next => exact .none

/-- In code both texts require a module or neither does. -/
theorem requiredModule? (code : place.cursor = .code)
    (related : Respaced kept place first second) :
    Option.Rel (BehindToken kept place first) (StatementForm.requiredModule? first)
      (StatementForm.requiredModule? second) := by
  rw [StatementForm.requiredModule?, StatementForm.requiredModule?]
  have word := (related.trimLeft_code code).behindWord (by decide : "require(".toList ≠ [])
    (by decide) (.inr ⟨stops_trimLeft _, stops_trimLeft _⟩)
  refine relBind word fun {one other} behind => ?_
  obtain ⟨call, solid, called, -, argument⟩ := behind
  have inCode := Place.cursor_after_solid code solid
  have named := (argument.trimLeft_code inCode).moduleName? inCode
    (.inr ⟨stops_trimLeft _, stops_trimLeft _⟩)
  refine relBind named fun {one other} behind => ?_
  obtain ⟨name, whole, -, rest⟩ := behind
  refine relMono (rest.trimLeft.behindChar (by decide : isSolid ')' = true)
    (.inr ⟨stops_trimLeft _, stops_trimLeft _⟩)) fun closed => ?_
  have fromName := closed.of_trimLeft.prepend
  rw [← whole] at fromName
  have fromCall := (fromName.of_trimLeft_code inCode).prepend
  rw [← called] at fromCall
  exact fromCall.of_trimLeft_code code

end Respaced

namespace StatementForm

theorem lawful_ofNames : ofNames.Lawful where
  word_blank blank rest := dropWord?_blank (by decide) blank rest
  word_closing closing := dropWord?_beforeClosing (by decide : isSolid 'i' = true) _ closing
  word ready related := related.behindWord (by decide) (by decide) ready
  body code steady apart keeps related := by
    refine relBind (related.blanks?_apart steady apart) fun same => ?_
    obtain ⟨rfl, rfl⟩ := same
    refine relMono ((related.trimLeft_code code).fromClause? ?_ (.inl rfl) fun _ =>
      ⟨by decide, by decide⟩) fun behind => behind.of_trimLeft_code code
    rw [code]
    exact keeps
  ends found := .of_blanks?_bind found EndsInLine.of_fromClause?

theorem lawful_ofModule : ofModule.Lawful where
  word_blank blank rest := dropWord?_blank (by decide) blank rest
  word_closing closing := dropWord?_beforeClosing (by decide : isSolid 'i' = true) _ closing
  word ready related := related.behindWord (by decide) (by decide) ready
  body code steady apart _ related := by
    refine relBind (related.blanks?_apart steady apart) fun same => ?_
    obtain ⟨rfl, rfl⟩ := same
    exact relMono ((related.trimLeft_code code).moduleName? code
      (.inr ⟨stops_trimLeft _, stops_trimLeft _⟩)) fun behind => behind.of_trimLeft_code code
  ends found := .of_blanks?_bind found EndsInLine.of_moduleName?

theorem endsInLine_of_requiredModule? {text rest : List Char}
    (found : requiredModule? text = some rest) : EndsInLine text rest := by
  simp only [requiredModule?, Option.bind_eq_some_iff] at found
  obtain ⟨argument, called, behind, named, closed⟩ := found
  have fromName := (EndsInLine.of_dropChar? (by decide) closed).of_trimLeft
  obtain ⟨between, last, -, whole⟩ := EndsInLine.of_moduleName? named
  have fromQuote := (fromName.prepend [last]).prepend between
  rw [List.singleton_append, ← whole] at fromQuote
  have fromCall := fromQuote.of_trimLeft.prepend "require(".toList
  rw [← dropWord?_eq_some called] at fromCall
  exact fromCall.of_trimLeft

theorem lawful_ofRequired : ofRequired.Lawful where
  word_blank blank rest := declaringWord?_blank blank rest
  word_closing closing := declaringWord?_beforeClosing closing
  word ready related := related.declaringWord? ready
  body code steady apart _ related := by
    refine relBind (related.bound? code steady apart) fun behind => ?_
    obtain ⟨before, whole, inCode, rest⟩ := behind
    rw [whole]
    exact relMono (rest.requiredModule? inCode) BehindToken.prepend
  ends {text rest} found := by
    simp only [ofRequired, bound?, Option.bind_eq_some_iff] at found
    obtain ⟨behind, ⟨names, bound, sign⟩, required⟩ := found
    have fromSign := (endsInLine_of_requiredModule? required).prepend ['=']
    rw [List.singleton_append, ← dropChar?_eq_some sign] at fromSign
    rw [binding?] at bound
    split at bound
    next =>
      cases bound
      have whole := fromSign.prepend (text.takeWhile isBindingChar)
      rwa [List.takeWhile_append_dropWhile] at whole
    next => cases bound

end StatementForm

namespace StatementForm

variable {form : StatementForm}

/-- Whether a statement that begins at a place, if one does, is no part of a literal,
means the same in any spacing, and ends at the level where it begins. -/
def suits (form : StatementForm) (place : Place) (text : List Char) : Bool :=
  (form.word? (text.dropWhile isInlineBlank)).all fun rest =>
    place.cursor == .code && !beforeClosing rest && form.keeps rest &&
      (form.find? text).all fun behind =>
        place.after (text.take (text.length - behind.length)) == place

/-- Whether the statements of one form are found in any spacing: those at the beginning
of a line suit their places, and the layout sets no blanks in front of one. -/
def isOrderly (form : StatementForm) : Place → (startsLine : Bool) → List Char → Bool
  | _, _, [] => true
  | place, startsLine, char :: rest =>
      (!(startsLine || place.loose) || form.suits place (char :: rest)) &&
        (!place.loose || (form.find? (char :: rest)).isNone) &&
        isOrderly form (place.advance char) (char == '\n') rest

end StatementForm

/-- Behind the blanks of a line as in front of them, what two texts begin with can be
compared. -/
theorem Respaced.dropInline_ready (related : Respaced kept place first second)
    (ready : Respaced.Ready place first second) :
    Respaced.Ready (place.after (first.takeWhile isInlineBlank))
        (first.dropWhile isInlineBlank) (second.dropWhile isInlineBlank) ∧
      Respaced kept (place.after (first.takeWhile isInlineBlank))
        (first.dropWhile isInlineBlank) (second.dropWhile isInlineBlank) := by
  rcases ready with steady | ⟨firstStops, secondStops⟩
  · obtain ⟨tight, spaced⟩ := related.dropInline steady
    exact ⟨.inl tight, spaced⟩
  · rw [takeWhile_of_stops (stops_isInlineBlank firstStops),
      dropWhile_of_stops (stops_isInlineBlank firstStops),
      dropWhile_of_stops (stops_isInlineBlank secondStops)]
    exact ⟨.inr ⟨firstStops, secondStops⟩, related⟩

namespace StatementForm.Lawful

variable {form : StatementForm}

theorem endsInLine (lawful : form.Lawful) {text rest : List Char}
    (found : form.find? text = some rest) : EndsInLine text rest := by
  obtain ⟨behind, reached, rfl⟩ := Option.map_eq_some_iff.mp found
  obtain ⟨inner, word, body⟩ := Option.bind_eq_some_iff.mp reached
  have same : Respaced false {} (text.dropWhile isInlineBlank) (text.dropWhile isInlineBlank) :=
    .refl {} _
  have related := lawful.word (.inl fun _ => rfl) same
  rw [word] at related
  cases related with
  | some behind =>
      obtain ⟨letters, -, whole, -⟩ := behind
      have fromWord := ((lawful.ends body).statementEnd.prepend letters).prepend
        (text.takeWhile isInlineBlank)
      rwa [← whole, List.takeWhile_append_dropWhile] at fromWord

theorem find?_closing (lawful : form.Lawful) {text : List Char}
    (closing : beforeClosing text = true) : form.find? text = none := by
  rw [find?, lawful.word_closing (by rwa [beforeClosing_dropInline])]
  rfl

/-- No statement begins with a blank, or else it begins behind the blanks as well. -/
theorem find?_trimLeft (lawful : form.Lawful) (text : List Char) :
    form.find? text = none ∨ form.find? text = form.find? (trimLeft text) := by
  induction text with
  | nil => exact .inr rfl
  | cons char text ih =>
      cases blank : isBlank char with
      | false => exact .inr (by rw [trimLeft_of_stops (stops_cons blank)])
      | true =>
          cases inline : isInlineBlank char with
          | false =>
              left
              rw [find?, dropWhile_of_stops (stops_cons inline), lawful.word_blank blank]
              rfl
          | true =>
              have skip : form.find? (char :: text) = form.find? text := by
                rw [find?, List.dropWhile_cons_of_pos inline]
                rfl
              rw [skip]
              simpa [trimLeft, blank] using ih

/-- Where a statement suits its place, it begins both texts or neither. -/
theorem find? (lawful : form.Lawful) (suits : form.suits place first = true)
    (ready : Respaced.Ready place first second) (related : Respaced kept place first second) :
    Option.Rel (Behind kept place first) (form.find? first) (form.find? second) := by
  obtain ⟨inner, spaced⟩ := related.dropInline_ready ready
  have word := lawful.word inner spaced
  rw [StatementForm.suits] at suits
  rw [StatementForm.find?, StatementForm.find?]
  generalize form.word? (first.dropWhile isInlineBlank) = one at word suits ⊢
  generalize form.word? (second.dropWhile isInlineBlank) = other at word ⊢
  cases word with
  | none => exact .none
  | some behind =>
      obtain ⟨letters, solid, whole, steady, rest⟩ := behind
      simp only [Option.all_some, Bool.and_eq_true, beq_iff_eq, Bool.not_eq_true'] at suits
      obtain ⟨⟨⟨code, apart⟩, keeps⟩, -⟩ := suits
      have begun : (place.after (first.takeWhile isInlineBlank)).cursor = .code := by
        rwa [Place.after_blanks code fun _ member => isBlank_of_isSeparator
          (isSeparator_of_isInlineBlank (List.mem_takeWhile_imp member))]
      have body := lawful.body (Place.cursor_after_solid begun solid) steady apart keeps rest
      rw [Option.bind_some, Option.bind_some]
      refine relMap body fun {one other} reached => ?_
      obtain ⟨token, same, tight, related⟩ := reached
      have fromName := (related.statementEnd tight).prepend
      rw [← same] at fromName
      have fromWord := fromName.prepend
      rw [← whole] at fromWord
      have fromLine := fromWord.prepend
      rwa [List.takeWhile_append_dropWhile] at fromLine

/-- A statement that suits its place leads back to it. -/
theorem find?_back (lawful : form.Lawful) (suits : form.suits place first = true)
    (ready : Respaced.Ready place first second) (related : Respaced kept place first second) :
    Option.Rel (fun one other => ∃ before, first = before ++ one ∧ place.after before = place ∧
        Respaced kept place one other)
      (form.find? first) (form.find? second) := by
  refine relMono (relKnown (lawful.find? suits ready related)) fun {one other} reached => ?_
  obtain ⟨found, before, whole, related⟩ := reached
  have back : place.after before = place := by
    have front : first.take (first.length - one.length) = before := by simp [whole]
    obtain ⟨behind, body, -⟩ := Option.map_eq_some_iff.mp found
    obtain ⟨rest, word, -⟩ := Option.bind_eq_some_iff.mp body
    rw [StatementForm.suits, word, found, Option.all_some, Option.all_some, front,
      Bool.and_eq_true, beq_iff_eq] at suits
    exact suits.2
  rw [back] at related
  exact ⟨before, whole, back, related⟩

/-- Where the layout sets the blanks no statement begins. -/
theorem find?_free (lawful : form.Lawful) {startsLine : Bool} (code : place.cursor = .code)
    (free : place.Free first) (orderly : form.isOrderly place startsLine first = true)
    (related : Respaced kept place first second) : form.find? second = none := by
  cases closing : beforeClosing first with
  | true => exact lawful.find?_closing (related.beforeClosing_eq ▸ closing)
  | false =>
      have loose : place.loose = true := free.resolve_right (by simp [closing])
      rcases lawful.find?_trimLeft second with none | trimmed
      · exact none
      · have here : form.suits place (trimLeft first) = true ∧
            form.find? (trimLeft first) = none := by
          clear related
          induction first generalizing startsLine with
          | nil => cases closing
          | cons char first ih =>
              rw [isOrderly, loose] at orderly
              simp only [Bool.or_true, Bool.not_true, Bool.false_or, Bool.and_eq_true,
                Option.isNone_iff_eq_none] at orderly
              obtain ⟨⟨suit, none⟩, rest⟩ := orderly
              cases blank : isBlank char with
              | false => rw [trimLeft_of_stops (stops_cons blank)]; exact ⟨suit, none⟩
              | true =>
                  rw [Place.advance_blank code blank] at rest
                  rw [beforeClosing_blank blank] at closing
                  have inner := ih (.inl loose) rest closing
                  simpa [trimLeft, blank] using inner
        have found := lawful.find? here.1 (.inr ⟨stops_trimLeft _, stops_trimLeft _⟩)
          (related.trimLeft_code code)
        rw [here.2] at found
        rw [trimmed]
        generalize form.find? (trimLeft second) = right at found ⊢
        cases found
        rfl

theorem find?_here (lawful : form.Lawful) {startsLine : Bool} (code : place.cursor = .code)
    (free : place.Free first) (orderly : form.isOrderly place startsLine first = true) :
    form.find? first = none :=
  lawful.find?_free code free orderly (.refl place first : Respaced false place first first)

end StatementForm.Lawful

/-! ## Erasing -/

section Erasing

variable {find? : List Char → Option (List Char)}

theorem eraseFrom_skipLine (find? : List Char → Option (List Char)) {last : Char}
    (inline : last ≠ '\n') (before rest : List Char) (startsLine : Bool) :
    eraseFrom find? (before.length + 1) startsLine (before ++ last :: rest) =
      eraseFrom find? 0 false rest := by
  induction before generalizing startsLine with
  | nil => rw [List.length_nil, List.nil_append, eraseFrom, beq_false_of_ne inline]
  | cons char before ih => exact ih _

theorem eraseFrom_ended {text behind : List Char} (found : find? text = some behind)
    (ends : EndsInLine text behind) :
    eraseFrom find? 0 true text = eraseFrom find? 0 false behind := by
  obtain ⟨before, last, inline, rfl⟩ := ends
  cases before with
  | nil =>
      rw [List.nil_append] at found ⊢
      rw [eraseFrom]
      simp [found]
  | cons char before =>
      rw [List.cons_append] at found ⊢
      rw [eraseFrom]
      simp only [if_true, found]
      have length : (before ++ last :: behind).length - behind.length = before.length + 1 := by
        simp only [List.length_append, List.length_cons]
        omega
      rw [length, eraseFrom_skipLine find? inline]

end Erasing

namespace StatementForm

variable {form : StatementForm}

theorem isOrderly_cons {startsLine : Bool} {before rest : List Char} {last : Char}
    (orderly : form.isOrderly place startsLine (before ++ last :: rest) = true) :
    form.isOrderly (place.after (before ++ [last])) (last == '\n') rest = true := by
  induction before generalizing place startsLine with
  | nil =>
      rw [List.nil_append, isOrderly, Bool.and_eq_true] at orderly
      exact orderly.2
  | cons char before ih =>
      rw [List.cons_append, isOrderly, Bool.and_eq_true] at orderly
      exact ih orderly.2

/-- Behind a statement statements are as orderly as in front of it. -/
theorem isOrderly_behind {startsLine : Bool} {text before rest : List Char}
    (orderly : form.isOrderly place startsLine text = true) (whole : text = before ++ rest)
    (back : place.after before = place) (ends : EndsInLine text rest) :
    form.isOrderly place false rest = true := by
  obtain ⟨between, last, inline, same⟩ := ends
  have joined : before ++ rest = between ++ [last] ++ rest := by
    rw [← whole, same, List.append_assoc, List.singleton_append]
  have front := List.append_cancel_right joined
  rw [same] at orderly
  have behind := isOrderly_cons orderly
  rwa [← front, back, beq_false_of_ne inline] at behind

/-- In front of a closing sign nothing is erased up to the sign. -/
theorem Lawful.beforeClosing_eraseFrom (lawful : form.Lawful) {startsLine : Bool}
    {text : List Char} (closing : beforeClosing text = true) :
    beforeClosing (eraseFrom form.find? 0 startsLine text) = true := by
  induction text generalizing startsLine with
  | nil => rfl
  | cons char text ih =>
      rw [eraseFrom_pass fun _ => lawful.find?_closing closing]
      cases blank : isBlank char with
      | false =>
          rw [beforeClosing_visible blank] at closing ⊢
          exact closing
      | true =>
          rw [beforeClosing_blank blank] at closing ⊢
          exact ih closing

/-- Where both texts begin with the same character, a statement begins in neither of them,
or in both, and leads back to the place. -/
theorem Lawful.find?_keep (lawful : form.Lawful) {startsLine otherStarts : Bool} {char : Char}
    (orderly : form.isOrderly place startsLine (char :: first) = true)
    (aligned : startsLine = otherStarts ∨ place.cursor = .code ∧ place.Free (char :: first))
    (rest : Respaced kept (place.advance char) first second) :
    (startsLine = true → form.find? (char :: first) = none) ∧
        (otherStarts = true → form.find? (char :: second) = none) ∨
      startsLine = true ∧ otherStarts = true ∧ ∃ before one other,
        form.find? (char :: first) = some one ∧ form.find? (char :: second) = some other ∧
          char :: first = before ++ one ∧ place.after before = place ∧
            Respaced kept place one other := by
  by_cases free : place.cursor = .code ∧ place.Free (char :: first)
  · exact .inl ⟨fun _ => lawful.find?_here free.1 free.2 orderly,
      fun _ => lawful.find?_free free.1 free.2 orderly (.keep rest)⟩
  obtain rfl := aligned.resolve_right free
  have steady : place.Steady := by
    intro code
    rw [Bool.eq_false_iff]
    exact fun loose => free ⟨code, .inl loose⟩
  cases startsLine with
  | false => exact .inl ⟨nofun, nofun⟩
  | true =>
      rw [isOrderly, Bool.and_eq_true, Bool.and_eq_true] at orderly
      have suits : form.suits place (char :: first) = true := by simpa using orderly.1.1
      have found := lawful.find?_back suits (.inl steady) (.keep rest)
      generalize form.find? (char :: first) = one, form.find? (char :: second) = other
        at found ⊢
      cases found with
      | none => exact .inl ⟨fun _ => rfl, fun _ => rfl⟩
      | some behind =>
          obtain ⟨before, whole, back, reached⟩ := behind
          exact .inr ⟨rfl, rfl, before, _, _, rfl, rfl, whole, back, reached⟩

/-- Both texts are spaced anew without their statements. At places where the layout sets
the blanks only one of them may begin a line. -/
theorem Lawful.eraseFrom (lawful : form.Lawful) {startsLine otherStarts : Bool}
    (orderly : form.isOrderly place startsLine first = true)
    (aligned : startsLine = otherStarts ∨ place.cursor = .code ∧ place.Free first)
    (related : Respaced kept place first second) :
    Respaced kept place (Source.eraseFrom form.find? 0 startsLine first)
      (Source.eraseFrom form.find? 0 otherStarts second) := by
  induction length : first.length + second.length using Nat.strongRecOn
    generalizing place startsLine otherStarts first second with
  | _ size ih =>
  have orderlyLine := orderly
  cases related with
  | nil => exact .nil place
  | @left _ char first second code blank free ends rest =>
      rw [isOrderly, Bool.and_eq_true] at orderlyLine
      have inner := orderlyLine.2
      rw [Place.advance_blank code blank] at inner
      have before : place.Free (char :: first) :=
        free.imp_right (beforeClosing_blank blank).trans
      rw [List.length_cons] at length
      rw [eraseFrom_pass fun _ => lawful.find?_here code before orderly]
      refine .left code blank (free.imp_right lawful.beforeClosing_eraseFrom) ?_
        (ih _ (by omega) inner (.inr ⟨code, free⟩) rest rfl)
      intro kept atEnd
      refine (ends kept atEnd).imp_right fun feed => ?_
      obtain ⟨tail, rfl⟩ := List.head?_eq_some_iff.mp feed
      rw [eraseFrom_pass fun _ => lawful.find?_free code free inner rest]
      rfl
  | @right _ char first second code separates free ends rest =>
      have none : form.find? (char :: second) = none :=
        lawful.find?_free code free orderly (.right code separates free ends rest)
      rw [List.length_cons] at length
      rw [eraseFrom_pass fun _ => none]
      refine .right code separates (free.imp_right lawful.beforeClosing_eraseFrom) ?_
        (ih _ (by omega) orderly (.inr ⟨code, free⟩) rest rfl)
      intro kept atEnd
      refine (ends kept atEnd).imp_right fun stops => ?_
      cases first with
      | nil => exact stops_nil
      | cons next first =>
          rw [eraseFrom_pass fun _ => lawful.find?_here code free orderly]
          exact stops_cons (stops next rfl)
  | @keep _ char first second rest =>
      simp only [List.length_cons] at length
      rcases lawful.find?_keep orderly aligned rest with ⟨absent, absentOther⟩ |
        ⟨rfl, rfl, before, one, other, here, there, whole, back, reached⟩
      · rw [isOrderly, Bool.and_eq_true] at orderlyLine
        rw [eraseFrom_pass absent, eraseFrom_pass absentOther]
        exact .keep (ih _ (by omega) orderlyLine.2 (.inl rfl) rest rfl)
      · have ends := lawful.endsInLine here
        have endsOther := lawful.endsInLine there
        have shorter := ends.length_lt
        have shorterOther := endsOther.length_lt
        simp only [List.length_cons] at shorter shorterOther
        rw [eraseFrom_ended here ends, eraseFrom_ended there endsOther]
        exact ih _ (by omega) (isOrderly_behind orderly whole back ends) (.inl rfl) reached rfl

end StatementForm

def withoutImports (text : List Char) : List Char :=
  eraseStatements requireCall? (eraseStatements importModule? (eraseStatements importFrom? text))

/-- Whether the imports of a text are found in any spacing. -/
def hasOrderlyImports (text : List Char) : Bool :=
  let named := eraseStatements importFrom? text
  let alone := eraseStatements importModule? named
  StatementForm.ofNames.isOrderly {} true text &&
    StatementForm.ofModule.isOrderly {} true named &&
      StatementForm.ofRequired.isOrderly {} true alone

/-- Without their imports both texts are spaced anew. -/
theorem Respaced.withoutImports (orderly : hasOrderlyImports first = true)
    (related : Respaced kept {} first second) :
    Respaced kept {} (Source.withoutImports first) (Source.withoutImports second) := by
  have erased {form : StatementForm} (lawful : form.Lawful) {first second : List Char}
      (orderly : form.isOrderly {} true first = true)
      (related : Respaced kept {} first second) :
      Respaced kept {} (eraseStatements form.find? first)
        (eraseStatements form.find? second) :=
    lawful.eraseFrom orderly (.inl rfl) related
  simp only [hasOrderlyImports, Bool.and_eq_true] at orderly
  obtain ⟨⟨names, alone⟩, required⟩ := orderly
  rw [Source.withoutImports, Source.withoutImports]
  rw [← StatementForm.find?_ofNames] at alone required ⊢
  rw [← StatementForm.find?_ofModule] at required ⊢
  rw [← StatementForm.find?_ofRequired]
  exact erased StatementForm.lawful_ofRequired required
    (erased StatementForm.lawful_ofModule alone
      (erased StatementForm.lawful_ofNames names related))

end TwinSchema.Source
