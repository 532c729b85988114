import TwinSchema.Proofs.Source.Blanks
import TwinSchema.Proofs.Source.RespacedReading

/-!
# Respaced declarations

The declaration of a schema is found in any spacing of a source text, and its
statement ends at the same place: the layout sets no blanks outside the brackets
of the statement.
-/

namespace TwinSchema.Source

open Json Text

variable {place : Place} {first second : List Char}

/-- Whether a statement ends before a character of code. -/
def endsBefore (depth : Nat) (char : Char) (rest : List Char) : Bool :=
  depth == 0 && (isCloser char || endsStatement char rest)

/-- One step through a statement. -/
theorem statement_cons (cursor : Cursor) (depth : Nat) (char : Char) (rest : List Char) :
    statement cursor depth (char :: rest) =
      if cursor = .code ∧ endsBefore depth char rest = true then []
      else
        char :: statement (cursor.advance sourceQuotes char) (depthAfter cursor depth char)
          rest := by
  cases cursor with
  | literal | escape => rfl
  | code =>
      rw [statement.eq_def, depthAfter, if_pos rfl]
      cases opens : isOpener char with
      | true =>
          have noEnd : endsStatement char rest = false := by
            simp only [isOpener, Bool.or_eq_true, beq_iff_eq] at opens
            rcases opens with (rfl | rfl) | rfl <;> rfl
          simp [endsBefore, opens, not_isCloser_of_isOpener opens, noEnd,
            advance_bracket (.inl opens)]
      | false =>
          cases closes : isCloser char with
          | true =>
              cases depth <;> simp [endsBefore, opens, closes, advance_bracket (.inr closes)]
          | false => simp [endsBefore, opens, closes]

/-- Whether the layout sets no blanks outside the brackets of the statement that a
text begins with. -/
def isEnclosed : Place → (depth : Nat) → List Char → Bool
  | _, _, [] => true
  | place, depth, char :: rest =>
      if place.cursor = .code then
        (0 < depth || !place.loose) &&
          (endsBefore depth char rest ||
            isEnclosed (place.advance char) (depthAfter .code depth char) rest)
      else isEnclosed (place.advance char) depth rest

theorem isPrefix_statement (cursor : Cursor) (depth : Nat) (text : List Char) :
    statement cursor depth text <+: text := by
  fun_induction statement cursor depth text with
  | case1 | case3 | case5 => exact List.nil_prefix
  | case2 | case4 | case6 | case7 =>
      rename_i ih
      exact (List.prefix_cons_inj _).mpr ih

namespace Respaced

open Relaxed (isBlank_of_isSeparator)

theorem endsBefore_eq {char : Char} (rest : Respaced false (place.advance char) first second)
    (depth : Nat) : endsBefore depth char first = endsBefore depth char second := by
  rw [endsBefore, endsBefore, endsStatement, endsStatement, rest.firstVisible_eq]

theorem free_statement (free : place.Free first) (cursor : Cursor) (depth : Nat) :
    place.Free (Source.statement cursor depth first) := by
  obtain ⟨more, whole⟩ := isPrefix_statement cursor depth first
  rw [← whole] at free
  exact free.of_front

theorem statement_blank {char : Char} {text : List Char} (code : place.cursor = .code)
    (blank : isBlank char = true) (depth : Nat) :
    Source.statement place.cursor depth (char :: text) =
      if endsBefore depth char text = true then []
      else char :: Source.statement place.cursor depth text := by
  rw [statement_cons, depthAfter_blank blank, ← Place.cursor_advance,
    Place.advance_blank code blank]
  simp [code]

/-- A sign of the layout closes a bracket. -/
theorem isCloser_of_closesGap {char : Char} (closes : closesGap char = true) :
    isCloser char = true := by
  rcases closesGap_iff.mp closes with rfl | rfl <;> rfl

/-- In front of a closing sign the statement of the second text holds only blanks
that the layout may set. -/
theorem statement_second (related : Respaced false place first second)
    (code : place.cursor = .code) (fitting : isFitting place first = true)
    (closing : beforeClosing first = true) :
    Respaced false place [] (Source.statement place.cursor 0 second) := by
  induction related with
  | nil place => exact .nil place
  | @keep place char first second rest ih =>
      cases blank : isBlank char with
      | true =>
          have suit := suits_of_isFitting fitting code
          simp only [suits, blank, Bool.not_true, Bool.false_or, Bool.and_eq_true] at suit
          have inner := isFitting_tail fitting
          rw [Place.advance_blank code blank] at inner rest ih
          rw [beforeClosing_blank blank] at closing
          rw [statement_blank code blank]
          split
          next => exact .nil place
          next => exact .right code suit.1.1.1 (.inr rfl) (by simp) (ih code inner closing)
      | false =>
          rw [beforeClosing_visible blank] at closing
          rw [statement_cons, if_pos]
          · exact .nil place
          · simp [code, endsBefore, isCloser_of_closesGap closing]
  | @left place char first second _ blank free _ rest ih =>
      have inner := isFitting_tail fitting
      rw [Place.advance_blank code blank] at inner
      rw [beforeClosing_blank blank] at closing
      exact ih code inner closing
  | @right place char first second _ separates free _ rest ih =>
      rw [statement_blank code (isBlank_of_isSeparator separates)]
      split
      next => exact .nil place
      next => exact .right code separates (.inr rfl) (by simp) (ih code fitting closing)

/-- In front of a closing sign the statement of the first text holds only blanks. -/
theorem statement_first (code : place.cursor = .code) (closing : beforeClosing first = true) :
    Respaced false place (Source.statement place.cursor 0 first) [] := by
  induction first with
  | nil => exact .nil place
  | cons char first ih =>
      cases blank : isBlank char with
      | true =>
          rw [beforeClosing_blank blank] at closing
          rw [statement_blank code blank]
          split
          next => exact .nil place
          next => exact .left code blank (free_statement (.inr closing) _ _) (by simp) (ih closing)
      | false =>
          rw [beforeClosing_visible blank] at closing
          rw [statement_cons, if_pos]
          · exact .nil place
          · simp [code, endsBefore, isCloser_of_closesGap closing]

/-- Both texts begin with the same statement, apart from blanks that the layout may
set. -/
theorem statement (related : Respaced false place first second) {depth : Nat}
    (fitting : isFitting place first = true) (enclosed : isEnclosed place depth first = true) :
    Respaced false place (Source.statement place.cursor depth first)
      (Source.statement place.cursor depth second) := by
  -- where a statement ends at a blank, the layout sets it in front of a closing sign
  have outside {depth : Nat} {char : Char} {text : List Char}
      (ends : endsBefore depth char text = true) : depth = 0 := by
    rw [endsBefore, Bool.and_eq_true, beq_iff_eq] at ends
    exact ends.1
  induction related generalizing depth with
  | nil place => exact .nil place
  | @keep place char first second rest ih =>
      rw [statement_cons, statement_cons, rest.endsBefore_eq]
      rw [isEnclosed, rest.endsBefore_eq] at enclosed
      split
      next => exact .nil place
      next goesOn =>
        rw [← Place.cursor_advance]
        refine .keep (ih (isFitting_tail fitting) ?_)
        split at enclosed
        next code =>
          rw [Bool.and_eq_true, Bool.or_eq_true (endsBefore _ _ _)] at enclosed
          rw [code]
          exact enclosed.2.resolve_left fun ends => goesOn ⟨code, ends⟩
        next noCode => rwa [depthAfter, if_neg noCode]
  | @left place char first second code blank free _ rest ih =>
      have inner := isFitting_tail fitting
      rw [Place.advance_blank code blank] at inner
      rw [isEnclosed, if_pos code, depthAfter_blank blank, Place.advance_blank code blank,
        Bool.and_eq_true, Bool.or_eq_true (endsBefore _ _ _)] at enclosed
      rw [statement_blank code blank]
      split
      next ends =>
        obtain rfl := outside ends
        have closing := free.resolve_left (by simpa using enclosed.1)
        exact rest.statement_second code inner closing
      next goesOn =>
        exact .left code blank (free_statement free _ _) (by simp)
          (ih inner (enclosed.2.resolve_left goesOn))
  | @right place char first second code separates free _ rest ih =>
      rw [statement_blank code (isBlank_of_isSeparator separates)]
      split
      next ends =>
        obtain rfl := outside ends
        cases first with
        | nil => exact .nil place
        | cons next first =>
            rw [isEnclosed, if_pos code, Bool.and_eq_true] at enclosed
            exact statement_first code (free.resolve_left (by simpa using enclosed.1))
      next => exact .right code separates (free_statement free _ _) (by simp) (ih fitting enclosed)

end Respaced

theorem alike_statement (related : Respaced false place first second) (code : place.cursor = .code)
    (fitting : isFitting place first = true) (enclosed : isEnclosed place 0 first = true) :
    Alike (statement .code 0 first) (statement .code 0 second) := by
  have same := related.statement fitting enclosed
  rw [code] at same
  exact .of_front same code fitting (isPrefix_statement _ _ _)

/-! ## Right sides -/

variable {kept : Bool}

/-- Rests of two texts that are spaced anew, where the place of the first text leads
to that of its rest. -/
def Behind (kept : Bool) (place : Place) (text one other : List Char) : Prop :=
  ∃ before, text = before ++ one ∧ Respaced kept (place.after before) one other

namespace Behind

variable {text one other : List Char}

theorem prepend {before : List Char} (behind : Behind kept (place.after before) text one other) :
    Behind kept place (before ++ text) one other := by
  obtain ⟨between, rfl, related⟩ := behind
  refine ⟨before ++ between, (List.append_assoc _ _ _).symm, ?_⟩
  rwa [Place.after_append]

theorem of_advance {char : Char} (behind : Behind kept (place.advance char) text one other) :
    Behind kept place (char :: text) one other := by
  obtain ⟨between, rfl, related⟩ := behind
  exact ⟨char :: between, rfl, related⟩

theorem of_trimLeft {place : Place} {text one other : List Char}
    (behind : Behind kept (place.after (text.takeWhile isBlank)) (trimLeft text) one other) :
    Behind kept place text one other := by
  have whole := behind.prepend
  rwa [trimLeft, List.takeWhile_append_dropWhile] at whole

theorem trimLeft {place : Place} {text one other : List Char}
    (behind : Behind kept place text one other) :
    Behind kept place text (Text.trimLeft one) (Text.trimLeft other) := by
  obtain ⟨before, rfl, related⟩ := behind
  refine ⟨before ++ one.takeWhile isBlank, ?_, ?_⟩
  · rw [List.append_assoc, Text.trimLeft, List.takeWhile_append_dropWhile]
  · rw [Place.after_append]
    exact related.trimLeft

end Behind

/-- Rests of two texts behind a word of solid characters in the first. -/
def BehindWord (kept : Bool) (place : Place) (text one other : List Char) : Prop :=
  ∃ word, (∀ char ∈ word, isSolid char = true) ∧ text = word ++ one ∧
    (place.after word).Steady ∧ Respaced kept (place.after word) one other

/-- What follows the equals sign of a declaration, behind its annotation. -/
def assigned? (text : List Char) : Option (List Char) :=
  (annotation? text).bind (dropChar? '=')

/-- The characters of a type annotation. -/
def isAnnotationChar (char : Char) : Bool := char != '=' && char != ';'

theorem isAnnotationChar_of_isBlank (char : Char) (blank : isBlank char = true) :
    isAnnotationChar char = true := by
  have equals := beq_of_isBlank blank (rfl : isBlank '=' = false)
  have semicolon := beq_of_isBlank blank (rfl : isBlank ';' = false)
  simp [isAnnotationChar, bne, equals, semicolon]

theorem stops_isAnnotationChar (text : List Char) :
    Stops isBlank (text.dropWhile isAnnotationChar) := by
  intro char member
  have stops := stops_dropWhile isAnnotationChar text char member
  rw [Bool.eq_false_iff]
  intro blank
  rw [isAnnotationChar_of_isBlank char blank] at stops
  cases stops

/-- An annotation is not empty, and an equals sign ends it. -/
theorem assigned?_colon (text : List Char) :
    assigned? (':' :: text) =
      if text.head? = some '=' then none
      else dropChar? '=' (text.dropWhile isAnnotationChar) := by
  have annotated : annotation? (':' :: text) =
      if (text.takeWhile isAnnotationChar).isEmpty then none
      else some (text.dropWhile isAnnotationChar) := rfl
  rw [assigned?, annotated]
  cases text with
  | nil => rfl
  | cons char text =>
      cases inside : isAnnotationChar char with
      | true =>
          have noSign : char ≠ '=' := by
            rintro rfl
            cases inside
          simp [inside, noSign]
      | false =>
          simp only [List.takeWhile_cons, List.dropWhile_cons, inside, List.head?_cons,
            Option.some.injEq]
          by_cases sign : char = '=' <;> simp [sign, dropChar?]

theorem assigned?_of_ne {char : Char} (noColon : char ≠ ':') (text : List Char) :
    assigned? (char :: text) = if char = '=' then some text else none := by
  rw [assigned?, annotation?, if_neg noColon, Option.bind_some, dropChar?]

def namedRightSide? (text : List Char) : Option (List Char) :=
  (name? text).bind fun named =>
    (assigned? (trimLeft named.2)).bind fun rest =>
      if beginsSchema (trimLeft rest) then some (trimLeft rest) else none

theorem rightSide?_eq (text : List Char) :
    rightSide? text = (declaringWord? text).bind fun rest =>
      (blanks? rest).bind namedRightSide? := by
  have named : namedRightSide? = fun text => (name? text).bind fun named =>
      (annotation? (trimLeft named.2)).bind fun rest => (dropChar? '=' rest).bind fun rest =>
        if beginsSchema (trimLeft rest) then some (trimLeft rest) else none := by
    funext text
    simp only [namedRightSide?, assigned?, Option.bind_assoc]
  rw [named]
  rfl

theorem exportedRightSide?_eq (text : List Char) :
    exportedRightSide? text = (dropWord? "export".toList text).bind fun rest =>
      (blanks? rest).bind rightSide? := by
  rw [exportedRightSide?]
  simp only [Option.bind_eq_bind]

namespace Respaced

theorem beginsSchema_eq (firstStops : Stops isBlank first) (secondStops : Stops isBlank second)
    (related : Respaced kept place first second) : beginsSchema first = beginsSchema second := by
  have letter := related.dropChar? (by decide : isSolid 'z' = true)
    (.inr ⟨firstStops, secondStops⟩)
  rw [beginsSchema, beginsSchema]
  generalize Text.dropChar? 'z' first = one at letter ⊢
  generalize Text.dropChar? 'z' second = other at letter ⊢
  cases letter with
  | none => rfl
  | some rest =>
      exact isSome_eq_of_rel (rest.trimLeft.dropChar? (by decide : isSolid '.' = true)
        (.inr ⟨stops_trimLeft _, stops_trimLeft _⟩))

/-- Behind an annotation that both texts have or lack, both go on with an equals sign
or neither does. -/
theorem assigned? (firstStops : Stops isBlank first) (secondStops : Stops isBlank second)
    (related : Respaced kept place first second) :
    Option.Rel (Behind kept place first) (Source.assigned? first) (Source.assigned? second) := by
  rcases related.cases_visible firstStops secondStops with
    ⟨rfl, rfl⟩ | ⟨char, tail, other, rfl, rfl, rest⟩
  · exact .none
  by_cases colon : char = ':'
  · subst colon
    have steady := Place.steady_advance (by decide : isSolid ':' = true) place
    rw [assigned?_colon, assigned?_colon]
    simp only [← rest.head?_eq (by decide : isSolid '=' = true) steady]
    split
    next => exact .none
    next =>
      have sign := (rest.dropWhile isAnnotationChar_of_isBlank).dropChar?
        (by decide : isSolid '=' = true)
        (.inr ⟨stops_isAnnotationChar tail, stops_isAnnotationChar other⟩)
      cases found : Text.dropChar? '=' (tail.dropWhile isAnnotationChar) with
      | none =>
          rw [found] at sign
          generalize Text.dropChar? '=' (other.dropWhile isAnnotationChar) = behind at sign ⊢
          cases sign
          exact .none
      | some assigned =>
          rw [found] at sign
          generalize Text.dropChar? '=' (other.dropWhile isAnnotationChar) = behind at sign ⊢
          cases sign with
          | some sign =>
              refine .some ⟨':' :: (tail.takeWhile isAnnotationChar ++ ['=']), ?_, ?_⟩
              · rw [List.cons_append, List.append_assoc, List.singleton_append,
                  ← dropChar?_eq_some found, List.takeWhile_append_dropWhile]
              · rwa [Place.after_cons, Place.after_append]
  · rw [assigned?_of_ne colon, assigned?_of_ne colon]
    split
    next equals =>
      subst equals
      exact .some ⟨['='], rfl, rest⟩
    next => exact .none

theorem namedRightSide? (firstStops : Stops isBlank first)
    (secondStops : Stops isBlank second) (related : Respaced kept place first second) :
    Option.Rel (Behind kept place first) (Source.namedRightSide? first)
      (Source.namedRightSide? second) := by
  have named := related.name? (.inr ⟨firstStops, secondStops⟩)
  rw [Source.namedRightSide?, Source.namedRightSide?]
  cases found : Text.name? first with
  | none =>
      rw [found] at named
      generalize Text.name? second = other at named ⊢
      cases named
      exact .none
  | some pair =>
      obtain ⟨name, rest⟩ := pair
      obtain ⟨rfl, -⟩ := name?_eq_some found
      rw [found] at named
      generalize Text.name? second = other at named ⊢
      cases named with
      | some same =>
          have assigned := same.2.trimLeft.assigned? (stops_trimLeft _) (stops_trimLeft _)
          rw [Option.bind_some, Option.bind_some]
          refine relBind assigned fun {one behind} reached => ?_
          have whole := reached.trimLeft
          obtain ⟨before, -, related⟩ := whole
          rw [related.beginsSchema_eq (stops_trimLeft _) (stops_trimLeft _)]
          split
          next => exact .some reached.trimLeft.of_trimLeft.prepend
          next => exact .none

/-- Behind a word both texts begin with or neither. -/
theorem behindWord {word : List Char} (nonempty : word ≠ [])
    (solid : word.all isSolid = true) (ready : Ready place first second)
    (related : Respaced kept place first second) :
    Option.Rel (BehindWord kept place first) (Text.dropWord? word first)
      (Text.dropWord? word second) := by
  have steady : (place.after word).Steady := by
    rcases word.eq_nil_or_concat with rfl | ⟨front, last, rfl⟩
    · exact absurd rfl nonempty
    · rw [List.concat_eq_append, List.all_append, Bool.and_eq_true] at solid
      rw [List.concat_eq_append, Place.after_append]
      exact Place.steady_advance (by simpa using solid.2) _
  have allSolid := List.all_eq_true.mp solid
  exact relMono (relKnown (related.dropWord? allSolid ready)) fun found =>
    ⟨word, allSolid, dropWord?_eq_some found.1, steady, found.2⟩

theorem declaringWord? (ready : Ready place first second)
    (related : Respaced kept place first second) :
    Option.Rel (BehindWord kept place first) (Source.declaringWord? first)
      (Source.declaringWord? second) := by
  rw [Source.declaringWord?, Source.declaringWord?]
  simp only [Option.orElse_eq_orElse, Option.orElse_eq_or]
  exact relOr (related.behindWord (by decide) (by decide) ready)
    (relOr (related.behindWord (by decide) (by decide) ready)
      (related.behindWord (by decide) (by decide) ready))

theorem blanks?_bindWord {form : List Char → Option (List Char)} {one other : List Char}
    (behind : BehindWord kept place first one other)
    (missing : ∀ text, beforeClosing text = true → form text = none)
    (step : ∀ {place : Place} {one other : List Char}, Stops isBlank one →
      Stops isBlank other → Respaced kept place one other →
        Option.Rel (Behind kept place one) (form one) (form other)) :
    Option.Rel (Behind kept place first) ((blanks? one).bind form) ((blanks? other).bind form) := by
  obtain ⟨word, -, rfl, steady, related⟩ := behind
  refine related.blanks?_bind steady missing missing ?_
  have found := step (stops_trimLeft _) (stops_trimLeft _) related.trimLeft
  generalize form (Text.trimLeft one) = left at found ⊢
  generalize form (Text.trimLeft other) = right at found ⊢
  cases found with
  | none => exact .none
  | some reached => exact .some reached.of_trimLeft.prepend

end Respaced

theorem declaringWord?_beforeClosing {text : List Char} (closing : beforeClosing text = true) :
    declaringWord? text = none := by
  rw [declaringWord?, show "const".toList = 'c' :: "onst".toList from rfl,
    show "let".toList = 'l' :: "et".toList from rfl,
    show "var".toList = 'v' :: "ar".toList from rfl,
    dropWord?_beforeClosing (by decide) _ closing,
    dropWord?_beforeClosing (by decide) _ closing,
    dropWord?_beforeClosing (by decide) _ closing]
  rfl

theorem rightSide?_beforeClosing {text : List Char} (closing : beforeClosing text = true) :
    rightSide? text = none := by
  rw [rightSide?_eq, declaringWord?_beforeClosing closing]
  rfl

namespace Respaced

theorem rightSide? (firstStops : Stops isBlank first) (secondStops : Stops isBlank second)
    (related : Respaced kept place first second) :
    Option.Rel (Behind kept place first) (Source.rightSide? first) (Source.rightSide? second) := by
  rw [rightSide?_eq, rightSide?_eq]
  refine relBind (related.declaringWord? (.inr ⟨firstStops, secondStops⟩)) fun behind => ?_
  refine blanks?_bindWord behind ?_ namedRightSide?
  intro text closing
  rw [Source.namedRightSide?, name?_beforeClosing closing]
  rfl

theorem exportedRightSide? (firstStops : Stops isBlank first)
    (secondStops : Stops isBlank second) (related : Respaced kept place first second) :
    Option.Rel (Behind kept place first) (Source.exportedRightSide? first)
      (Source.exportedRightSide? second) := by
  rw [exportedRightSide?_eq, exportedRightSide?_eq]
  refine relBind (related.behindWord (by decide : "export".toList ≠ []) (by decide)
    (.inr ⟨firstStops, secondStops⟩)) fun behind => ?_
  exact blanks?_bindWord behind (fun _ => rightSide?_beforeClosing) rightSide?

/-- Where a form matches nothing in front of blanks, both texts are searched to the
same place. -/
theorem search? {form : List Char → Option (List Char)}
    (missing : ∀ {char : Char} {text : List Char}, isBlank char = true →
      form (char :: text) = none)
    (step : ∀ {place : Place} {one other : List Char}, Stops isBlank one →
      Stops isBlank other → Respaced kept place one other →
        Option.Rel (Behind kept place one) (form one) (form other))
    (related : Respaced kept place first second) :
    Option.Rel (Behind kept place first) (Source.search? form first)
      (Source.search? form second) := by
  have skip {char : Char} {text : List Char} (blank : isBlank char = true) :
      Source.search? form (char :: text) = Source.search? form text := by
    rw [Source.search?, missing blank]
  have behind {place : Place} {char : Char} {text : List Char} {left right : Option (List Char)}
      (found : Option.Rel (Behind kept (place.advance char) text) left right) :
      Option.Rel (Behind kept place (char :: text)) left right := by
    cases found with
    | none => exact .none
    | some reached => exact .some (Behind.of_advance reached)
  induction related with
  | nil => exact .none
  | @keep place char first second rest ih =>
      cases blank : isBlank char with
      | true =>
          rw [skip blank, skip blank]
          exact behind ih
      | false =>
          have here := step (stops_cons blank) (stops_cons blank) (.keep rest)
          rw [Source.search?, Source.search?]
          generalize form (char :: first) = left at here ⊢
          generalize form (char :: second) = right at here ⊢
          cases here with
          | none => exact behind ih
          | some reached => exact .some reached
  | left code blank _ _ _ ih =>
      rw [skip blank]
      rw [← Place.advance_blank code blank] at ih
      exact behind ih
  | right _ separates _ _ _ ih =>
      rw [skip (Relaxed.isBlank_of_isSeparator separates)]
      exact ih

end Respaced

/-- Whether the layout leaves alone the statement that follows the first match of a
form: it begins in code, and the layout sets no blanks outside its brackets. -/
def isSettled (form : List Char → Option (List Char)) (text : List Char) : Bool :=
  (search? form text).all fun rest =>
    let place := Place.after {} (text.take (text.length - rest.length))
    place.cursor == .code && isEnclosed place 0 rest

theorem alike_search {form : List Char → Option (List Char)}
    (found : Option.Rel (Behind false {} first) (search? form first) (search? form second))
    (fitting : isFitting {} first = true) (settled : isSettled form first = true) :
    Option.Rel Alike ((search? form first).map (statement .code 0))
      ((search? form second).map (statement .code 0)) := by
  rw [isSettled] at settled
  generalize search? form first = left at found settled ⊢
  generalize search? form second = right at found ⊢
  cases found with
  | none => exact .none
  | @some one other behind =>
      obtain ⟨before, rfl, related⟩ := behind
      have front : (before ++ one).take ((before ++ one).length - one.length) = before := by
        simp
      simp only [Option.all_some, front, Bool.and_eq_true, beq_iff_eq] at settled
      exact .some (alike_statement related settled.1 (isFitting_suffix fitting) settled.2)

/-! ## Strategies -/

/-- Whether the layout leaves alone every statement that may hold the schema of a
text. -/
def isOutlined (text : List Char) : Bool :=
  isSettled exportedRightSide? text && isSettled rightSide? text &&
    ((constructorHead? text).isNone || isEnclosed {} 0 (trimLeft text))

section Strategies

variable (related : Respaced false {} first second) (fitting : isFitting {} first = true)
include related fitting

theorem exportedDeclaration?_alike (settled : isSettled exportedRightSide? first = true) :
    Option.Rel Alike (exportedDeclaration? first) (exportedDeclaration? second) :=
  alike_search
    (related.search? (fun blank => exportedRightSide?_blank blank _) Respaced.exportedRightSide?)
    fitting settled

theorem declaration?_alike (settled : isSettled rightSide? first = true) :
    Option.Rel Alike (declaration? first) (declaration? second) :=
  alike_search (related.search? (fun blank => rightSide?_blank blank _) Respaced.rightSide?)
    fitting settled

theorem bareExpression?_alike
    (enclosed : ((constructorHead? first).isNone || isEnclosed {} 0 (trimLeft first)) = true) :
    Option.Rel Alike (bareExpression? first) (bareExpression? second) := by
  have whole : Alike first second := ⟨{}, rfl, fitting, related⟩
  have head := whole.constructorHead?
  rw [bareExpression?, bareExpression?]
  generalize constructorHead? first = one at head enclosed ⊢
  generalize constructorHead? second = other at head ⊢
  cases head with
  | none => exact .none
  | some _ =>
      exact .some (alike_statement (related.trimLeft_code rfl) rfl
        (isFitting_trimLeft rfl fitting) enclosed)

end Strategies

theorem isSolidToken_vocabulary :
    ∀ entry ∈ vocabulary, isSolidToken entry.1 = true := by
  have all : vocabulary.all (fun entry => isSolidToken entry.1) = true := by decide
  exact List.all_eq_true.mp all

namespace Respaced

theorem nameAt?_eq (ready : Ready place first second)
    (related : Respaced false place first second) : nameAt? first = nameAt? second := by
  rw [nameAt?, nameAt?]
  apply List.find?_congr
  rintro ⟨name, node⟩ member
  have solid := isSolidToken_vocabulary _ member
  rw [isSolidToken, Bool.and_eq_true] at solid
  have word := related.dropWord? (List.all_eq_true.mp solid.2) ready
  simp only
  generalize Text.dropWord? name.toList first = one at word ⊢
  generalize Text.dropWord? name.toList second = other at word ⊢
  cases word with
  | none => rfl
  | some rest => simp only [rest.firstVisible_eq]

theorem occurrences_eq (related : Respaced false place first second) :
    occurrences first = occurrences second := by
  have skip {char : Char} {text : List Char} (blank : isBlank char = true) :
      occurrences (char :: text) = occurrences text := by
    rw [occurrences, nameAt?_blank blank text]
  induction related with
  | nil => rfl
  | @keep place char first second rest ih =>
      cases blank : isBlank char with
      | true => rw [skip blank, skip blank, ih]
      | false =>
          rw [occurrences, occurrences, ih,
            (Respaced.keep rest).nameAt?_eq (.inr ⟨stops_cons blank, stops_cons blank⟩)]
  | left _ blank _ _ _ ih => rw [skip blank, ih]
  | right _ separates _ _ _ ih =>
      rw [skip (Relaxed.isBlank_of_isSeparator separates), ih]

theorem namedProperties_eq (related : Respaced false place first second) :
    namedProperties first = namedProperties second := by
  rw [namedProperties, namedProperties, related.occurrences_eq]

end Respaced

theorem readTopLevel_alike {text other : List Char} (related : Respaced false {} text other)
    (alike : Alike first second) : readTopLevel text first = readTopLevel other second := by
  have classified : classify first = classify second := by
    obtain ⟨place, -, -, inner⟩ := alike
    exact inner.classify_eq
  rw [readTopLevel, readTopLevel, readExpression_alike alike, classified,
    related.namedProperties_eq]
  simp only [applyLinks_alike alike.trailingLinks]

theorem firstReadable_alike {text other : List Char} (related : Respaced false {} text other)
    {left right : List (Option (List Char))}
    (alike : List.Forall₂ (Option.Rel Alike) left right) :
    firstReadable text left = firstReadable other right := by
  induction alike with
  | nil => rfl
  | cons alike _ ih =>
      cases alike with
      | none => exact ih
      | some alike =>
          rw [firstReadable, firstReadable, readTopLevel_alike related alike, ih]

/-- Cleaned text is read as the same node in any spacing. -/
theorem readClean_respaced (related : Respaced false {} first second)
    (fitting : isFitting {} first = true) (outlined : isOutlined first = true) :
    readClean first = readClean second := by
  rw [isOutlined, Bool.and_eq_true, Bool.and_eq_true] at outlined
  obtain ⟨⟨exported, declared⟩, bare⟩ := outlined
  have strategies := firstReadable_alike related
    (.cons (exportedDeclaration?_alike related fitting exported)
      (.cons (declaration?_alike related fitting declared)
        (.cons (bareExpression?_alike related fitting bare) .nil)))
  rw [readClean, readClean, related.allBlank_eq, strategies, recognizedReference?,
    recognizedReference?, related.classify_eq]

end TwinSchema.Source
