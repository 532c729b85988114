import TwinSchema.Proofs.Source.Tame
import TwinSchema.Proofs.Text.Slack
import TwinSchema.Source.Reader

/-!
# Respaced source text

Source text may be spaced anew behind its opening braces and brackets, behind the
commas inside them and in front of the closing ones. This module says when one
text is another one spaced anew, which code a new spacing leaves its meaning, and
what the scanners that take a text apart find in both.
-/

namespace TwinSchema.Source

open Json Text

/-- A place in source text: the cursor of a scan, the level of the layout, and
whether the blanks there are set by the layout. -/
structure Place where
  cursor : Cursor := .code
  depth : Nat := 0
  loose : Bool := false
  deriving DecidableEq

namespace Place

/-- The place behind one more character. -/
def advance (place : Place) (char : Char) : Place :=
  match place.cursor with
  | .code =>
      { cursor := Cursor.code.advance sourceQuotes char
        depth :=
          if char == '{' || char == '[' then place.depth + 1
          else if closesGap char then place.depth - 1
          else place.depth
        loose := char == '{' || char == '[' || (char == ',' && 0 < place.depth) ||
          (place.loose && isBlank char) }
  | cursor => { cursor := cursor.advance sourceQuotes char, depth := place.depth }

def after (place : Place) (text : List Char) : Place := text.foldl advance place

variable {place : Place} {char : Char}

@[simp] theorem after_nil : place.after [] = place := rfl

@[simp] theorem after_cons (rest : List Char) :
    place.after (char :: rest) = (place.advance char).after rest := rfl

theorem after_append (first second : List Char) :
    place.after (first ++ second) = (place.after first).after second :=
  List.foldl_append

theorem cursor_advance (place : Place) (char : Char) :
    (place.advance char).cursor = place.cursor.advance sourceQuotes char := by
  obtain ⟨cursor, depth, loose⟩ := place
  cases cursor <;> rfl

theorem cursor_after (place : Place) (text : List Char) :
    (place.after text).cursor = place.cursor.after sourceQuotes text := by
  induction text generalizing place with
  | nil => rfl
  | cons char text ih => rw [after_cons, ih, cursor_advance]; rfl

theorem advance_blank (code : place.cursor = .code) (blank : isBlank char = true) :
    place.advance char = place := by
  have noQuote : char ∉ sourceQuotes := notMem_of_isBlank blank rfl
  have noSign : char ∉ ['{', '[', ',', '}', ']'] := notMem_of_isBlank blank rfl
  obtain ⟨cursor, depth, loose⟩ := place
  subst code
  simp only [List.mem_cons, List.not_mem_nil, or_false, not_or] at noSign
  simp [advance, Cursor.advance, noQuote, closesGap, noSign, blank]

/-- Behind a solid character the layout sets no blanks. -/
theorem loose_advance_solid (solid : isSolid char = true) (place : Place) :
    (place.advance char).loose = false := by
  simp only [isSolid, opensGap, Bool.and_eq_true, Bool.not_eq_true',
    Bool.or_eq_false_iff] at solid
  obtain ⟨cursor, depth, loose⟩ := place
  cases cursor <;> simp [advance, solid]

/-- In a literal the layout sets no blanks. -/
theorem loose_advance_literal (literal : place.cursor ≠ .code) (char : Char) :
    (place.advance char).loose = false := by
  obtain ⟨cursor, depth, loose⟩ := place
  cases cursor with
  | code => exact absurd rfl literal
  | literal | escape => rfl

theorem advance_solid (code : place.cursor = .code) (solid : isSolid char = true) :
    place.advance char = { place with loose := false } := by
  simp only [isSolid, opensGap, Bool.and_eq_true, Bool.not_eq_true',
    Bool.or_eq_false_iff, decide_eq_false_iff_not] at solid
  obtain ⟨cursor, depth, loose⟩ := place
  subst code
  simp [advance, solid, Cursor.advance]

/-- The layout sets blanks only inside braces and brackets. -/
def Sound (place : Place) : Prop := place.loose = true → 0 < place.depth

theorem Sound.advance (sound : place.Sound) (char : Char) :
    (place.advance char).Sound := by
  intro loose
  obtain ⟨cursor, depth, before⟩ := place
  cases cursor with
  | code =>
      simp only [Place.advance, Bool.or_eq_true, Bool.and_eq_true, decide_eq_true_eq]
        at loose ⊢
      split
      · omega
      · rename_i noOpener
        rw [not_or] at noOpener
        have deep : 0 < depth := by
          rcases loose with ((opener | opener) | comma) | blank
          · exact absurd opener noOpener.1
          · exact absurd opener noOpener.2
          · exact comma.2
          · exact sound blank.1
        split
        · rename_i closes
          rcases closesGap_iff.mp closes with rfl | rfl <;> simp_all [isBlank]
        · exact deep
  | literal | escape => cases loose

/-- Whether the layout may set the blanks in front of a text. -/
def Free (place : Place) (text : List Char) : Prop :=
  place.loose = true ∨ beforeClosing text = true

/-- A place in code whose blanks the layout leaves alone, or a place in a
literal. -/
def Steady (place : Place) : Prop := place.cursor = .code → place.loose = false

theorem steady_advance (solid : isSolid char = true) (place : Place) :
    (place.advance char).Steady :=
  fun _ => loose_advance_solid solid place

theorem after_blanks {blanks : List Char} (code : place.cursor = .code)
    (blank : ∀ char ∈ blanks, isBlank char = true) : place.after blanks = place := by
  induction blanks with
  | nil => rfl
  | cons char blanks ih =>
      rw [List.forall_mem_cons] at blank
      rw [after_cons, advance_blank code blank.1]
      exact ih blank.2

theorem cursor_after_solid {text : List Char} (code : place.cursor = .code)
    (solid : ∀ char ∈ text, isSolid char = true) : (place.after text).cursor = .code := by
  induction text generalizing place with
  | nil => exact code
  | cons char text ih =>
      rw [List.forall_mem_cons] at solid
      apply ih _ solid.2
      rw [advance_solid code solid.1]
      exact code

end Place

/-! ## The relation -/

/-- The characters that end a line comment. -/
def isLineEnd (char : Char) : Bool := char == '\r' || char == '\n'

/-- A text and the same text spaced anew, from a place on. Where the ends of lines are
`kept`, blanks in front of a closing sign are replaced by blanks that begin with a line
feed, unless no line ends in them. -/
inductive Respaced (kept : Bool) : Place → (first second : List Char) → Prop where
  | nil (place : Place) : Respaced kept place [] []
  | keep {place : Place} {char : Char} {first second : List Char}
      (rest : Respaced kept (place.advance char) first second) :
      Respaced kept place (char :: first) (char :: second)
  | left {place : Place} {char : Char} {first second : List Char}
      (code : place.cursor = .code) (blank : isBlank char = true)
      (free : place.Free first)
      (ends : kept = true → isLineEnd char = true →
        place.loose = true ∨ second.head? = some '\n')
      (rest : Respaced kept place first second) :
      Respaced kept place (char :: first) second
  | right {place : Place} {char : Char} {first second : List Char}
      (code : place.cursor = .code) (separates : isSeparator char = true)
      (free : place.Free first)
      (ends : kept = true → isLineEnd char = true →
        place.loose = true ∨ Stops isBlank first)
      (rest : Respaced kept place first second) :
      Respaced kept place first (char :: second)

namespace Respaced

open Relaxed (isBlank_of_isSeparator)

variable {kept : Bool} {place : Place} {char : Char} {first second : List Char}

theorem refl (place : Place) (text : List Char) :
    Respaced kept place text text := by
  induction text generalizing place with
  | nil => exact .nil place
  | cons char text ih => exact .keep (ih _)

theorem firstVisible_eq (related : Respaced kept place first second) :
    firstVisible first = firstVisible second := by
  have skip {char : Char} {text : List Char} (blank : isBlank char = true) :
      firstVisible (char :: text) = firstVisible text := by
    simp [firstVisible, blank]
  induction related with
  | nil => rfl
  | keep _ ih =>
      simp only [firstVisible, List.find?_cons] at ih ⊢
      rw [ih]
  | left _ blank _ _ _ ih => rw [skip blank, ih]
  | right _ separates _ _ _ ih => rw [skip (isBlank_of_isSeparator separates), ih]

theorem beforeClosing_eq (related : Respaced kept place first second) :
    beforeClosing first = beforeClosing second := by
  rw [beforeClosing, beforeClosing, related.firstVisible_eq]

theorem allBlank_eq (related : Respaced kept place first second) :
    allBlank first = allBlank second := by
  rw [allBlank_eq_isNone, allBlank_eq_isNone, related.firstVisible_eq]

/-- Behind a run of characters among which are the blanks. -/
theorem dropWhile {test : Char → Bool}
    (blanks : ∀ char, isBlank char = true → test char = true)
    (related : Respaced kept place first second) :
    Respaced kept (place.after (first.takeWhile test)) (first.dropWhile test)
      (second.dropWhile test) := by
  induction related with
  | nil place => exact .nil place
  | @keep place char first second rest ih =>
      cases inside : test char with
      | false =>
          simp only [List.takeWhile_cons, List.dropWhile_cons, inside]
          exact .keep rest
      | true =>
          simp only [List.takeWhile_cons, List.dropWhile_cons, inside]
          exact ih
  | left code blank _ _ _ ih =>
      rw [List.takeWhile_cons_of_pos (blanks _ blank),
        List.dropWhile_cons_of_pos (blanks _ blank), Place.after_cons,
        Place.advance_blank code blank]
      exact ih
  | right _ separates _ _ _ ih =>
      rw [List.dropWhile_cons_of_pos (blanks _ (isBlank_of_isSeparator separates))]
      exact ih

theorem trimLeft (related : Respaced kept place first second) :
    Respaced kept (place.after (first.takeWhile isBlank)) (Text.trimLeft first)
      (Text.trimLeft second) :=
  related.dropWhile fun _ blank => blank

/-- In code no blanks lead to another place. -/
theorem trimLeft_code (code : place.cursor = .code)
    (related : Respaced kept place first second) :
    Respaced kept place (Text.trimLeft first) (Text.trimLeft second) := by
  have trimmed := related.trimLeft
  rwa [Place.after_blanks code fun char member => List.mem_takeWhile_imp member] at trimmed

/-- Texts whose first characters are visible differ behind these only. -/
theorem cases_visible (firstStops : Stops isBlank first) (secondStops : Stops isBlank second)
    (related : Respaced kept place first second) :
    (first = [] ∧ second = []) ∨ ∃ char tail other, first = char :: tail ∧
      second = char :: other ∧ Respaced kept (place.advance char) tail other := by
  cases related with
  | nil => exact .inl ⟨rfl, rfl⟩
  | keep rest => exact .inr ⟨_, _, _, rfl, rfl, rest⟩
  | left _ blank =>
      have visible := firstStops _ rfl
      rw [blank] at visible
      cases visible
  | right _ separates =>
      have visible := secondStops _ rfl
      rw [isBlank_of_isSeparator separates] at visible
      cases visible

/-- Where the layout sets no blanks, texts differ behind their first characters
only. -/
theorem cases_steady (steady : place.Steady) (apart : beforeClosing first = false)
    (related : Respaced kept place first second) :
    ∃ char tail other, first = char :: tail ∧ second = char :: other ∧
      Respaced kept (place.advance char) tail other := by
  have tight (code : place.cursor = .code) {text : List Char}
      (free : place.Free text) : beforeClosing text = true := by
    rcases free with loose | closing
    · rw [steady code] at loose
      cases loose
    · exact closing
  cases related with
  | nil => cases apart
  | keep rest => exact ⟨_, _, _, rfl, rfl, rest⟩
  | left code blank free =>
      rw [beforeClosing_blank blank, tight code free] at apart
      cases apart
  | right code _ free =>
      rw [tight code free] at apart
      cases apart

/-- In a literal every character stays. -/
theorem cases_literal (literal : place.cursor ≠ .code)
    (related : Respaced kept place first second) :
    (first = [] ∧ second = []) ∨ ∃ char tail other, first = char :: tail ∧
      second = char :: other ∧ Respaced kept (place.advance char) tail other := by
  cases related with
  | nil => exact .inl ⟨rfl, rfl⟩
  | keep rest => exact .inr ⟨_, _, _, rfl, rfl, rest⟩
  | left code | right code => exact absurd code literal

/-- Two texts that a place is ready for: what they begin with can be compared. -/
def Ready (place : Place) (first second : List Char) : Prop :=
  place.Steady ∨ Stops isBlank first ∧ Stops isBlank second

/-- A search that finds nothing in front of a closing sign finds the same in both texts if it
does so behind their first characters. -/
theorem rel_of_ready {α : Type} {found : α → α → Prop} {search : List Char → Option α}
    (missing : ∀ text, beforeClosing text = true → search text = none)
    (ready : Ready place first second) (related : Respaced kept place first second)
    (both : ∀ {char : Char} {tail other : List Char}, first = char :: tail →
      Respaced kept (place.advance char) tail other →
        Option.Rel found (search (char :: tail)) (search (char :: other))) :
    Option.Rel found (search first) (search second) := by
  rcases ready with steady | ⟨firstStops, secondStops⟩
  · cases closing : beforeClosing first with
    | true =>
        rw [missing first closing, missing second (related.beforeClosing_eq ▸ closing)]
        exact .none
    | false =>
        obtain ⟨char, tail, other, rfl, rfl, rest⟩ := related.cases_steady steady closing
        exact both rfl rest
  · rcases related.cases_visible firstStops secondStops with
      ⟨rfl, rfl⟩ | ⟨char, tail, other, rfl, rfl, rest⟩
    · rw [missing [] rfl]
      exact .none
    · exact both rfl rest

theorem dropChar? {expected : Char} (solid : isSolid expected = true)
    (ready : Ready place first second) (related : Respaced kept place first second) :
    Option.Rel (Respaced kept (place.advance expected)) (Text.dropChar? expected first)
      (Text.dropChar? expected second) := by
  refine rel_of_ready (fun _ => dropChar?_beforeClosing solid) ready related
    fun {char tail other} _ rest => ?_
  rw [Text.dropChar?, Text.dropChar?]
  split
  next same => exact .some (same ▸ rest)
  next => exact .none

/-- Where the layout sets no blanks, both texts begin with a solid sign or both do not. -/
theorem head?_eq {sign : Char} (solid : isSolid sign = true) (steady : place.Steady)
    (related : Respaced kept place first second) :
    first.head? = some sign ↔ second.head? = some sign := by
  have told (text : List Char) :
      text.head? = some sign ↔ (Text.dropChar? sign text).isSome = true := by
    cases text with
    | nil => simp [Text.dropChar?]
    | cons char text =>
        rw [Text.dropChar?]
        split <;> simp_all
  rw [told, told, isSome_eq_of_rel (related.dropChar? solid (.inl steady))]

theorem dropWord? {word : List Char} (solid : ∀ char ∈ word, isSolid char = true)
    (ready : Ready place first second) (related : Respaced kept place first second) :
    Option.Rel (Respaced kept (place.after word)) (Text.dropWord? word first)
      (Text.dropWord? word second) := by
  induction word generalizing place first second with
  | nil =>
      simp only [Text.dropWord?, Place.after_nil]
      exact .some related
  | cons expected word ih =>
      rw [List.forall_mem_cons] at solid
      rw [dropWord?_cons, dropWord?_cons, Place.after_cons]
      exact relBind (related.dropChar? solid.1 ready) fun rest =>
        ih solid.2 (.inl (Place.steady_advance solid.1 place)) rest

theorem run {test : Char → Bool} (solid : ∀ char, test char = true → isSolid char = true)
    (steady : place.Steady) (related : Respaced kept place first second) :
    first.takeWhile test = second.takeWhile test ∧
      Respaced kept (place.after (first.takeWhile test)) (first.dropWhile test)
        (second.dropWhile test) := by
  have missing {text : List Char} (closing : beforeClosing text = true) :
      Stops test text := by
    cases text with
    | nil => exact stops_nil
    | cons char text =>
        apply stops_cons
        rw [Bool.eq_false_iff]
        intro inside
        rw [beforeClosing_solid (solid char inside)] at closing
        cases closing
  induction first generalizing place second with
  | nil =>
      have stops : Stops test second := missing related.beforeClosing_eq.symm
      rw [dropWhile_of_stops stops, takeWhile_of_stops stops]
      exact ⟨rfl, related⟩
  | cons char first ih =>
      cases closing : beforeClosing (char :: first) with
      | true =>
          have firstStops := missing closing
          have secondStops := missing (related.beforeClosing_eq ▸ closing)
          rw [dropWhile_of_stops firstStops, dropWhile_of_stops secondStops,
            takeWhile_of_stops firstStops, takeWhile_of_stops secondStops]
          exact ⟨rfl, related⟩
      | false =>
          obtain ⟨char, tail, other, same, rfl, rest⟩ :=
            related.cases_steady steady closing
          cases same
          cases inside : test char with
          | false =>
              rw [dropWhile_of_stops (stops_cons inside),
                dropWhile_of_stops (stops_cons inside),
                takeWhile_of_stops (stops_cons inside),
                takeWhile_of_stops (stops_cons inside)]
              exact ⟨rfl, related⟩
          | true =>
              obtain ⟨taken, dropped⟩ :=
                ih (Place.steady_advance (solid char inside) place) rest
              simp only [List.takeWhile_cons, List.dropWhile_cons, inside, if_true,
                Place.after_cons]
              exact ⟨by rw [taken], dropped⟩

theorem name? (ready : Ready place first second)
    (related : Respaced kept place first second) :
    Option.Rel (fun one other => one.1 = other.1 ∧
        Respaced kept (place.after one.1) one.2 other.2)
      (Text.name? first) (Text.name? second) := by
  refine rel_of_ready (fun _ => name?_beforeClosing) ready related
    fun {char tail other} _ rest => ?_
  rw [Text.name?, Text.name?]
  split
  next starts =>
    have solid := isSolid_of_isNamePart (isNamePart_of_isNameStart starts)
    obtain ⟨taken, dropped⟩ := rest.run (fun _ part => isSolid_of_isNamePart part)
      (Place.steady_advance solid place)
    exact .some ⟨by rw [taken], dropped⟩
  next => exact .none

/-- Behind at least one blank, in front of a closing sign nothing is found that
does not begin with one. -/
theorem blanks?_bind {α β : Type} {found : α → β → Prop}
    {next : List Char → Option α} {other : List Char → Option β}
    (steady : place.Steady) (related : Respaced kept place first second)
    (missing : ∀ text, beforeClosing text = true → next text = none)
    (missingOther : ∀ text, beforeClosing text = true → other text = none)
    (step : Option.Rel found (next (Text.trimLeft first)) (other (Text.trimLeft second))) :
    Option.Rel found ((blanks? first).bind next) ((blanks? second).bind other) := by
  have none {γ : Type} {scan : List Char → Option γ}
      (missing : ∀ text, beforeClosing text = true → scan text = none)
      {text : List Char} (closing : beforeClosing text = true) :
      (blanks? text).bind scan = none := by
    cases text with
    | nil => rfl
    | cons char text =>
        rw [blanks?]
        split
        next blank =>
          apply missing
          rwa [beforeClosing_trimLeft, ← beforeClosing_blank blank]
        next => rfl
  cases closing : beforeClosing first with
  | true =>
      rw [none missing closing, none missingOther (related.beforeClosing_eq ▸ closing)]
      exact .none
  | false =>
      obtain ⟨char, tail, rest, rfl, rfl, -⟩ := related.cases_steady steady closing
      rw [blanks?, blanks?]
      split
      next blank => simpa [Text.trimLeft, blank] using step
      next => exact .none

/-! ## Occurrences -/

theorem isPrefixOf_eq_isSome (word text : List Char) :
    word.isPrefixOf text = (Text.dropWord? word text).isSome := by
  induction word generalizing text with
  | nil => simp [Text.dropWord?]
  | cons expected word ih =>
      cases text with
      | nil => rfl
      | cons char text =>
          rw [List.isPrefixOf, Text.dropWord?, ih]
          by_cases same : char = expected
          · simp [same]
          · simp [same, Ne.symm same]

/-- A solid word occurs in both texts or in none. -/
theorem occursIn_eq {letter : Char} {word : List Char}
    (solid : ∀ char ∈ letter :: word, isSolid char = true)
    (related : Respaced kept place first second) :
    occursIn (letter :: word) first = occursIn (letter :: word) second := by
  have blank {char : Char} {text : List Char} (blank : isBlank char = true) :
      occursIn (letter :: word) (char :: text) = occursIn (letter :: word) text := by
    rw [occursIn, isPrefixOf_eq_isSome, Text.dropWord?, if_neg]
    · rfl
    · rintro rfl
      rw [isBlank_of_isSolid (solid char List.mem_cons_self)] at blank
      cases blank
  induction related with
  | nil => rfl
  | @keep place char first second rest ih =>
      rw [occursIn, occursIn, ih, isPrefixOf_eq_isSome, isPrefixOf_eq_isSome]
      congr 1
      rw [Text.dropWord?, Text.dropWord?]
      split
      next same =>
        rw [List.forall_mem_cons] at solid
        exact isSome_eq_of_rel (rest.dropWord? solid.2
          (.inl (Place.steady_advance (same ▸ solid.1) place)))
      next => rfl
  | left _ isBlank _ _ _ ih => rw [blank isBlank, ih]
  | right _ separates _ _ _ ih => rw [blank (isBlank_of_isSeparator separates), ih]

end Respaced

end TwinSchema.Source
