import TwinSchema.Proofs.Source.Leading
import TwinSchema.Proofs.Source.RespacedDeclarations

/-!
# Respaced preambles

The statements in front of source text are erased in any spacing. A statement that
begins a line begins it in both texts, unless the layout sets the blanks in front of
it; a module name is a literal, which the layout leaves alone.
-/

namespace TwinSchema.Source

open Json Text
open Relaxed (isBlank_of_isSeparator)

variable {kept : Bool} {place : Place} {first second : List Char}

theorem isSeparator_of_isInlineBlank {char : Char} (inline : isInlineBlank char = true) :
    isSeparator char = true := by
  simp only [isInlineBlank, Bool.or_eq_true, beq_iff_eq] at inline
  rcases inline with rfl | rfl <;> rfl

theorem isLineEnd_of_isInlineBlank {char : Char} (inline : isInlineBlank char = true) :
    isLineEnd char ≠ true := by
  simp only [isInlineBlank, Bool.or_eq_true, beq_iff_eq] at inline
  rcases inline with rfl | rfl <;> decide

theorem beforeClosing_dropInline (text : List Char) :
    beforeClosing (text.dropWhile isInlineBlank) = beforeClosing text := by
  induction text with
  | nil => rfl
  | cons char text ih =>
      cases inline : isInlineBlank char with
      | true =>
          rw [List.dropWhile_cons_of_pos inline, ih, beforeClosing_blank
            (isBlank_of_isSeparator (isSeparator_of_isInlineBlank inline))]
      | false => rw [dropWhile_of_stops (stops_cons inline)]

theorem head?_dropInline {text : List Char} (feed : text.head? = some '\n') :
    (text.dropWhile isInlineBlank).head? = some '\n' := by
  obtain ⟨rest, rfl⟩ := List.head?_eq_some_iff.mp feed
  rfl

theorem stops_isInlineBlank {text : List Char} (stops : Stops isBlank text) :
    Stops isInlineBlank text := by
  intro char member
  rw [Bool.eq_false_iff]
  intro inline
  have visible := stops char member
  rw [isBlank_of_isSeparator (isSeparator_of_isInlineBlank inline)] at visible
  cases visible

theorem stops_dropInline {text : List Char} (stops : Stops isBlank text) :
    Stops isBlank (text.dropWhile isInlineBlank) := by
  rwa [dropWhile_of_stops (stops_isInlineBlank stops)]

namespace Respaced

/-- In front of a closing sign the second text may begin with fewer blanks. -/
theorem dropInline_second (related : Respaced kept place first second)
    (code : place.cursor = .code) (closing : beforeClosing first = true) :
    Respaced kept place first (second.dropWhile isInlineBlank) := by
  induction related with
  | nil => exact .nil _
  | @keep place char first second rest ih =>
      cases inline : isInlineBlank char with
      | true =>
          have blank := isBlank_of_isSeparator (isSeparator_of_isInlineBlank inline)
          rw [beforeClosing_blank blank] at closing
          rw [Place.advance_blank code blank] at ih
          rw [List.dropWhile_cons_of_pos inline]
          exact .left code blank (.inr closing)
            (fun _ ends => absurd ends (isLineEnd_of_isInlineBlank inline)) (ih code closing)
      | false =>
          rw [dropWhile_of_stops (stops_cons inline)]
          exact .keep rest
  | left code blank free ends _ ih =>
      rw [beforeClosing_blank blank] at closing
      exact .left code blank free
        (fun kept atEnd => (ends kept atEnd).imp_right head?_dropInline) (ih code closing)
  | @right place char first second code separates free ends rest ih =>
      cases inline : isInlineBlank char with
      | true =>
          rw [List.dropWhile_cons_of_pos inline]
          exact ih code closing
      | false =>
          rw [dropWhile_of_stops (stops_cons inline)]
          exact .right code separates free ends rest

/-- In front of a closing sign the first text may begin with fewer blanks. -/
theorem dropInline_first (related : Respaced kept place first second)
    (code : place.cursor = .code) (closing : beforeClosing first = true) :
    Respaced kept place (first.dropWhile isInlineBlank) second := by
  induction related with
  | nil => exact .nil _
  | @keep place char first second rest ih =>
      cases inline : isInlineBlank char with
      | true =>
          have separates := isSeparator_of_isInlineBlank inline
          have blank := isBlank_of_isSeparator separates
          rw [beforeClosing_blank blank] at closing
          rw [Place.advance_blank code blank] at ih
          rw [List.dropWhile_cons_of_pos inline]
          exact .right code separates (.inr (by rwa [beforeClosing_dropInline]))
            (fun _ ends => absurd ends (isLineEnd_of_isInlineBlank inline)) (ih code closing)
      | false =>
          rw [dropWhile_of_stops (stops_cons inline)]
          exact .keep rest
  | @left place char first second code blank free ends rest ih =>
      rw [beforeClosing_blank blank] at closing
      cases inline : isInlineBlank char with
      | true =>
          rw [List.dropWhile_cons_of_pos inline]
          exact ih code closing
      | false =>
          rw [dropWhile_of_stops (stops_cons inline)]
          exact .left code blank free ends rest
  | right code separates _ ends _ ih =>
      exact .right code separates (.inr (by rwa [beforeClosing_dropInline]))
        (fun kept atEnd => (ends kept atEnd).imp_right stops_dropInline) (ih code closing)

/-- Where the layout sets no blanks it sets none behind those of the line. -/
theorem dropInline (related : Respaced kept place first second) (steady : place.Steady) :
    (place.after (first.takeWhile isInlineBlank)).Steady ∧
      Respaced kept (place.after (first.takeWhile isInlineBlank))
        (first.dropWhile isInlineBlank) (second.dropWhile isInlineBlank) := by
  have tight {place : Place} (steady : place.Steady) (code : place.cursor = .code)
      {text : List Char} (free : place.Free text) : beforeClosing text = true :=
    free.resolve_left (by simp [steady code])
  induction related with
  | nil => exact ⟨steady, .nil _⟩
  | @keep place char first second rest ih =>
      cases inline : isInlineBlank char with
      | true =>
          have blank := isBlank_of_isSeparator (isSeparator_of_isInlineBlank inline)
          simp only [List.takeWhile_cons, List.dropWhile_cons, inline, if_true,
            Place.after_cons]
          apply ih
          by_cases code : place.cursor = .code
          · rwa [Place.advance_blank code blank]
          · intro behind
            exact Place.loose_advance_literal code char
      | false =>
          rw [takeWhile_of_stops (stops_cons inline), dropWhile_of_stops (stops_cons inline),
            dropWhile_of_stops (stops_cons inline)]
          exact ⟨steady, .keep rest⟩
  | @left place char first second code blank free ends rest ih =>
      cases inline : isInlineBlank char with
      | true =>
          rw [List.takeWhile_cons_of_pos inline, List.dropWhile_cons_of_pos inline,
            Place.after_cons, Place.advance_blank code blank]
          exact ih steady
      | false =>
          rw [takeWhile_of_stops (stops_cons inline), dropWhile_of_stops (stops_cons inline)]
          exact ⟨steady, .left code blank free
            (fun kept atEnd => (ends kept atEnd).imp_right head?_dropInline)
            (rest.dropInline_second code (tight steady code free))⟩
  | @right place char first second code separates free ends rest ih =>
      cases inline : isInlineBlank char with
      | true =>
          rw [List.dropWhile_cons_of_pos inline]
          exact ih steady
      | false =>
          have closing := tight steady code free
          rw [dropWhile_of_stops (stops_cons inline), Place.after_blanks code fun _ member =>
            isBlank_of_isSeparator (isSeparator_of_isInlineBlank (List.mem_takeWhile_imp member))]
          exact ⟨steady, .right code separates (.inr (by rwa [beforeClosing_dropInline]))
            (fun kept atEnd => (ends kept atEnd).imp_right stops_dropInline)
            (rest.dropInline_first code closing)⟩

end Respaced

/-- Rests of two texts behind something in the first behind which the layout sets no
blanks. -/
def BehindToken (kept : Bool) (place : Place) (text one other : List Char) : Prop :=
  ∃ token, text = token ++ one ∧ (place.after token).Steady ∧
    Respaced kept (place.after token) one other

namespace BehindToken

variable {text one other : List Char}

theorem prepend {before : List Char}
    (behind : BehindToken kept (place.after before) text one other) :
    BehindToken kept place (before ++ text) one other := by
  obtain ⟨token, rfl, steady, related⟩ := behind
  refine ⟨before ++ token, (List.append_assoc _ _ _).symm, ?_, ?_⟩ <;>
    rwa [Place.after_append]

theorem of_advance {char : Char} (behind : BehindToken kept (place.advance char) text one other) :
    BehindToken kept place (char :: text) one other := by
  obtain ⟨token, rfl, steady, related⟩ := behind
  exact ⟨char :: token, rfl, steady, related⟩

theorem of_trimLeft (behind : BehindToken kept (place.after (text.takeWhile isBlank))
    (trimLeft text) one other) : BehindToken kept place text one other := by
  have whole := behind.prepend
  rwa [trimLeft, List.takeWhile_append_dropWhile] at whole

theorem of_trimLeft_code (code : place.cursor = .code)
    (behind : BehindToken kept place (trimLeft text) one other) :
    BehindToken kept place text one other := by
  rw [← Place.after_blanks code fun _ member => List.mem_takeWhile_imp member] at behind
  exact behind.of_trimLeft

end BehindToken

/-- The text after the quote that ends the name of a module. -/
def moduleEnd? : List Char → Option (List Char)
  | [] => none
  | char :: rest =>
      if isModuleQuote char then some rest
      else if char = '\n' then none
      else moduleEnd? rest

theorem moduleName?_cons (char : Char) (rest : List Char) :
    moduleName? (char :: rest) = if isModuleQuote char then moduleEnd? rest else none := by
  rw [moduleName?]
  congr 1
  induction rest with
  | nil => rfl
  | cons char rest ih =>
      rw [moduleEnd?]
      cases quote : isModuleQuote char with
      | true => simp [quote]
      | false =>
          by_cases feed : char = '\n'
          · subst feed
            rfl
          · rw [List.dropWhile_cons_of_pos (by simp [quote, feed]), ih]
            simp [feed]

theorem moduleName?_beforeClosing {text : List Char} (closing : beforeClosing text = true) :
    moduleName? text = none := by
  cases text with
  | nil => rfl
  | cons char text =>
      rw [moduleName?_cons]
      apply if_neg
      intro quotes
      rw [beforeClosing_visible (isBlank_of_isModuleQuote quotes)] at closing
      simp only [isModuleQuote, Bool.or_eq_true, beq_iff_eq] at quotes
      rcases quotes with rfl | rfl <;> cases closing

namespace Respaced

/-- The name of a module in a literal ends at the same quote in both texts. -/
theorem moduleEnd? {quote : Char} (quotes : isModuleQuote quote = true)
    (inside : place.cursor = .literal quote ∨ place.cursor = .escape quote)
    (related : Respaced kept place first second) :
    Option.Rel (BehindToken kept place first) (Source.moduleEnd? first)
      (Source.moduleEnd? second) := by
  induction first generalizing place second with
  | nil =>
      rcases related.cases_literal (by rcases inside with same | same <;> simp [same]) with
        ⟨-, rfl⟩ | ⟨_, _, _, cons, -⟩
      · exact .none
      · cases cons
  | cons char first ih =>
      have noCode : place.cursor ≠ .code := by rcases inside with same | same <;> simp [same]
      rcases related.cases_literal noCode with ⟨none, -⟩ | ⟨_, _, other, same, rfl, rest⟩
      · cases none
      cases same
      rw [Source.moduleEnd?, Source.moduleEnd?]
      split
      next => exact .some ⟨[char], rfl, fun _ => Place.loose_advance_literal noCode char, rest⟩
      next noQuote =>
        split
        next => exact .none
        next =>
          have different : char ≠ quote := by
            rintro rfl
            exact noQuote quotes
          have goesOn : (place.advance char).cursor = .literal quote ∨
              (place.advance char).cursor = .escape quote := by
            rw [Place.cursor_advance]
            rcases inside with same | same
            · rw [same, Cursor.advance, if_neg different]
              split
              · exact .inr rfl
              · exact .inl rfl
            · rw [same]
              exact .inl rfl
          exact relMono (ih goesOn rest) BehindToken.of_advance

/-- In code both texts begin with the name of a module or neither does. -/
theorem moduleName? (code : place.cursor = .code) (ready : Ready place first second)
    (related : Respaced kept place first second) :
    Option.Rel (BehindToken kept place first) (Source.moduleName? first)
      (Source.moduleName? second) := by
  refine rel_of_ready (fun _ => moduleName?_beforeClosing) ready related
    fun {char tail other} same rest => ?_
  rw [same, moduleName?_cons, moduleName?_cons]
  split
  next quotes =>
    have opens : (place.advance char).cursor = .literal char := by
      rw [Place.cursor_advance, code, Cursor.advance, if_pos]
      simp only [isModuleQuote, Bool.or_eq_true, beq_iff_eq] at quotes
      rcases quotes with rfl | rfl <;> decide
    exact relMono (rest.moduleEnd? quotes (.inl opens)) BehindToken.of_advance
  next => exact .none

/-- Statements end alike where the layout sets no blanks. -/
theorem statementEnd (related : Respaced kept place first second) (steady : place.Steady) :
    Behind kept place first (Source.statementEnd first) (Source.statementEnd second) := by
  obtain ⟨tight, rest⟩ := related.dropInline steady
  have sign := rest.dropChar? (by decide : isSolid ';' = true) (.inl tight)
  have whole := first.takeWhile_append_dropWhile (p := isInlineBlank)
  rw [Source.statementEnd, Source.statementEnd]
  cases dropped : Text.dropChar? ';' (first.dropWhile isInlineBlank) with
  | none =>
      rw [dropped] at sign
      generalize Text.dropChar? ';' (second.dropWhile isInlineBlank) = other at sign ⊢
      cases sign
      exact ⟨_, whole.symm, rest⟩
  | some behind =>
      rw [dropped] at sign
      generalize Text.dropChar? ';' (second.dropWhile isInlineBlank) = other at sign ⊢
      cases sign with
      | some rest =>
          refine ⟨first.takeWhile isInlineBlank ++ [';'], ?_, ?_⟩
          · rw [List.append_assoc, List.singleton_append, Option.getD_some,
              ← dropChar?_eq_some dropped, whole]
          · rwa [Place.after_append]

end Respaced

/-- The text after a clause that names a module to import from. -/
def clauseHere? (previous : Char) (text : List Char) : Option (List Char) :=
  if isWordChar previous then none
  else ((dropWord? "from".toList text).bind blanks?).bind moduleName?

theorem fromClause?_cons (previous char : Char) (rest : List Char) :
    fromClause? previous (char :: rest) =
      (clauseHere? previous (char :: rest)).or
        (if char = ';' then none else fromClause? char rest) := by
  rw [fromClause?, clauseHere?]
  split
  next after found => rw [found, Option.some_or]
  next missing => rw [missing, Option.none_or]

/-- Whether the word of a clause stands in code only, up to the first clause that names
a module. -/
def clausesInCode : Cursor → (previous : Char) → List Char → Bool
  | _, _, [] => true
  | cursor, previous, char :: rest =>
      (cursor == .code || (dropWord? "from".toList (char :: rest)).isNone) &&
        ((clauseHere? previous (char :: rest)).isSome || char == ';' ||
          clausesInCode (cursor.advance sourceQuotes char) char rest)

theorem isSolid_of_isWordChar {char : Char} (inWord : isWordChar char = true) :
    isSolid char = true :=
  isSolid_of_isNamePart (by simp [isNamePart, inWord])

/-- No clause begins with a sign other than its first letter. -/
theorem clauseHere?_of_ne {char : Char} (different : char ≠ 'f') (previous : Char)
    (rest : List Char) : clauseHere? previous (char :: rest) = none := by
  have noWord : dropWord? "from".toList (char :: rest) = none := if_neg different
  rw [clauseHere?, noWord]
  simp

theorem ne_of_isBlank {char : Char} (blank : isBlank char = true) :
    char ≠ 'f' ∧ char ≠ ';' := by
  have noSign : char ∉ ['f', ';'] := notMem_of_isBlank blank rfl
  simpa using noSign

/-- A clause does not begin at a blank. -/
theorem fromClause?_blank {char : Char} (blank : isBlank char = true) (previous : Char)
    (text : List Char) : fromClause? previous (char :: text) = fromClause? char text := by
  obtain ⟨noLetter, noSign⟩ := ne_of_isBlank blank
  rw [fromClause?_cons, clauseHere?_of_ne noLetter, Option.none_or, if_neg noSign]

theorem isWordChar_of_isBlank {char : Char} (blank : isBlank char = true) :
    isWordChar char = false := by
  rw [Bool.eq_false_iff]
  intro inWord
  rw [isBlank_of_isSolid (isSolid_of_isWordChar inWord)] at blank
  cases blank

/-- Behind the characters of words the layout sets no blanks. -/
theorem isWordChar_of_loose {char : Char} (loose : (place.advance char).loose = true) :
    isWordChar char = false := by
  rw [Bool.eq_false_iff]
  intro inWord
  rw [Place.loose_advance_solid (isSolid_of_isWordChar inWord)] at loose
  cases loose

namespace Respaced

/-- Behind characters of the same kind both texts go on with a clause or neither does,
where the word of a clause stands in code only. -/
theorem clauseHere? {char previous other : Char} (visible : isBlank char = false)
    (inCode : place.cursor = .code ∨
      Text.dropWord? "from".toList (char :: first) = none)
    (same : isWordChar previous = isWordChar other)
    (rest : Respaced kept (place.advance char) first second) :
    Option.Rel (BehindToken kept place (char :: first))
      (Source.clauseHere? previous (char :: first))
      (Source.clauseHere? other (char :: second)) := by
  have word := (Respaced.keep rest).behindWord (by decide : "from".toList ≠ []) (by decide)
    (.inr ⟨stops_cons visible, stops_cons visible⟩)
  rw [Source.clauseHere?, Source.clauseHere?, same]
  split
  next => exact .none
  next =>
    rcases inCode with code | noWord
    · rw [Option.bind_assoc, Option.bind_assoc]
      refine relBind word fun behind => ?_
      obtain ⟨before, solid, whole, steady, related⟩ := behind
      rw [whole]
      have inner := Place.cursor_after_solid code solid
      refine related.blanks?_bind steady (fun _ => moduleName?_beforeClosing)
        (fun _ => moduleName?_beforeClosing) ?_
      exact relMono ((related.trimLeft_code inner).moduleName? inner
        (.inr ⟨stops_trimLeft _, stops_trimLeft _⟩)) fun reached =>
          (reached.of_trimLeft_code inner).prepend
    · rw [noWord] at word ⊢
      generalize Text.dropWord? "from".toList (char :: second) = right at word ⊢
      cases word
      exact .none

/-- Both texts go on to the same clause. -/
theorem fromClause? {previous other : Char}
    (inCode : clausesInCode place.cursor previous first = true)
    (same : isWordChar previous = isWordChar other ∨ beforeClosing first = true)
    (loose : place.loose = true → isWordChar previous = false ∧ isWordChar other = false)
    (related : Respaced kept place first second) :
    Option.Rel (BehindToken kept place first) (Source.fromClause? previous first)
      (Source.fromClause? other second) := by
  induction related generalizing previous other with
  | nil => exact .none
  | @keep place char first second rest ih =>
      rw [clausesInCode, Bool.and_eq_true, ← Place.cursor_advance] at inCode
      have here : Option.Rel (BehindToken kept place (char :: first))
          (Source.clauseHere? previous (char :: first))
          (Source.clauseHere? other (char :: second)) := by
        by_cases letter : char = 'f'
        · subst letter
          refine clauseHere? rfl (by simpa using inCode.1) (same.resolve_right ?_) rest
          rw [beforeClosing_visible rfl]
          decide
        · rw [clauseHere?_of_ne letter, clauseHere?_of_ne letter]
          exact .none
      rw [fromClause?_cons, fromClause?_cons]
      generalize Source.clauseHere? previous (char :: first) = left at here inCode ⊢
      generalize Source.clauseHere? other (char :: second) = right at here ⊢
      cases here with
      | some behind => exact .some behind
      | none =>
          rw [Option.none_or, Option.none_or]
          split
          next => exact .none
          next noSign =>
            have inner : clausesInCode (place.advance char).cursor char first = true := by
              simpa [noSign] using inCode.2
            have apart (loose : (place.advance char).loose = true) : isWordChar char = false :=
              isWordChar_of_loose loose
            exact relMono (ih inner (.inl rfl) fun loose => ⟨apart loose, apart loose⟩)
              BehindToken.of_advance
  | @left place char first second code blank free ends rest ih =>
      rw [fromClause?_blank blank]
      rw [clausesInCode, clauseHere?_of_ne (ne_of_isBlank blank).1, ← Place.cursor_advance,
        Place.advance_blank code blank, Bool.and_eq_true] at inCode
      have inner : clausesInCode place.cursor char first = true := by
        simpa [ne_of_isBlank blank] using inCode.2
      have found : Option.Rel (BehindToken kept place first) (Source.fromClause? char first)
          (Source.fromClause? other second) := ih inner
        (free.symm.imp_right fun set => (isWordChar_of_isBlank blank).trans (loose set).2.symm).symm
        fun set => ⟨isWordChar_of_isBlank blank, (loose set).2⟩
      rw [← Place.advance_blank code blank] at found
      exact relMono found BehindToken.of_advance
  | @right place char first second code separates free ends rest ih =>
      have blank := isBlank_of_isSeparator separates
      rw [fromClause?_blank blank]
      exact ih inCode
        (free.symm.imp_right fun set => (loose set).1.trans (isWordChar_of_isBlank blank).symm).symm
        fun set => ⟨(loose set).1, isWordChar_of_isBlank blank⟩

end Respaced

end TwinSchema.Source
