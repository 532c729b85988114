import TwinSchema.Proofs.Source.Balanced
import TwinSchema.Proofs.Source.Respaced

/-!
# Respaced expressions

An expression and the same expression spaced anew fall into the same calls, with
arguments that are spaced anew, and their arguments into the same pieces.
-/

namespace TwinSchema.Source

open Json Text

/-- How many brackets are open behind one more character. -/
def depthAfter (cursor : Cursor) (depth : Nat) (char : Char) : Nat :=
  if cursor = .code then
    if isOpener char then depth + 1
    else if isCloser char then depth - 1
    else depth
  else depth

theorem not_isCloser_of_isOpener {char : Char} (opens : isOpener char = true) :
    isCloser char = false := by
  rw [Bool.eq_false_iff]
  intro closes
  rw [not_isOpener_of_isCloser closes] at opens
  cases opens

/-- Brackets open no literal. -/
theorem advance_bracket {char : Char}
    (bracket : isOpener char = true ∨ isCloser char = true) :
    Cursor.code.advance sourceQuotes char = .code := by
  rw [Cursor.advance, if_neg]
  intro quoted
  obtain ⟨noOpener, noCloser⟩ := not_bracket_of_mem quoted
  rw [noOpener, noCloser] at bracket
  simp at bracket

/-- One step of the search for a closing bracket. -/
theorem splitClosing_cons (cursor : Cursor) (depth : Nat) (char : Char)
    (rest : List Char) :
    splitClosing cursor depth (char :: rest) =
      if cursor = .code ∧ isCloser char = true ∧ depth = 0 then some ([], rest)
      else
        enclose char (splitClosing (cursor.advance sourceQuotes char)
          (depthAfter cursor depth char) rest) := by
  cases cursor with
  | code =>
      rw [splitClosing.eq_def]
      cases opens : isOpener char with
      | true =>
          simp [depthAfter, opens, not_isCloser_of_isOpener opens,
            advance_bracket (.inl opens)]
      | false =>
          cases closes : isCloser char with
          | true =>
              cases depth <;> simp [depthAfter, opens, closes, advance_bracket (.inr closes)]
          | false => simp [depthAfter, opens, closes]
  | literal | escape => simp [splitClosing, depthAfter]

/-- A bracket that closes in a text closes there whatever comes behind. -/
theorem splitClosing_extend {cursor : Cursor} {depth : Nat} {text inside rest : List Char}
    (found : splitClosing cursor depth text = some (inside, rest)) (more : List Char) :
    splitClosing cursor depth (text ++ more) = some (inside, rest ++ more) := by
  induction text generalizing cursor depth inside with
  | nil => simp [splitClosing] at found
  | cons char text ih =>
      rw [splitClosing_cons] at found
      rw [List.cons_append, splitClosing_cons]
      split at found
      next closes =>
        cases found
        rw [if_pos closes]
      next inner =>
        obtain ⟨behind, closed, rfl⟩ := enclose_eq_some found
        rw [if_neg inner, ih closed]
        rfl

/-- Whether what stands between two backquotes holds no other backquote. -/
def isOneTemplate (inside : List Char) : Bool :=
  quotedRest? '\x60' (inside ++ ['\x60']) == some (inside ++ ['\x60'], [])

/-- Whether the arguments of a call are one template if they are taken for one. -/
def areOneTemplate (arguments : List Char) : Bool :=
  (templateText? (trim arguments)).all isOneTemplate

/-- Whether a text begins with the words of a constness assertion. -/
def beginsAssertion (text : List Char) : Bool :=
  (((dropWord? "as".toList (trimLeft text)).bind blanks?).bind
    (dropWord? "const".toList)).isSome

/-- Whether a character of code and the text behind it mean the same in any
spacing: a blank separates in data too, a slash begins no comment, the arguments
behind a bracket are no two templates, and where the layout sets the blanks no
assertion begins, which would need one in front. -/
def suits (place : Place) (char : Char) (rest : List Char) : Bool :=
  (!isBlank char || isSeparator char) &&
  (char != '/' || !(rest.head?.any fun next => next == '/' || next == '*')) &&
  (char != '(' || (splitClosing .code 0 rest).all fun split => areOneTemplate split.1) &&
  (!place.loose || !beginsAssertion (char :: rest))

/-- Whether all the code of a text means the same in any spacing. -/
def isFitting : Place → List Char → Bool
  | _, [] => true
  | place, char :: rest =>
      (place.cursor != .code || suits place char rest) &&
        isFitting (place.advance char) rest

section Fitting

variable {place : Place} {char : Char} {rest : List Char}

theorem suits_of_isFitting (fitting : isFitting place (char :: rest) = true)
    (code : place.cursor = .code) : suits place char rest = true := by
  rw [isFitting, Bool.and_eq_true, code] at fitting
  simpa using fitting.1

theorem isFitting_tail (fitting : isFitting place (char :: rest) = true) :
    isFitting (place.advance char) rest = true := by
  rw [isFitting, Bool.and_eq_true] at fitting
  exact fitting.2

theorem isFitting_suffix {before rest : List Char}
    (fitting : isFitting place (before ++ rest) = true) :
    isFitting (place.after before) rest = true := by
  induction before generalizing place with
  | nil => exact fitting
  | cons char before ih => exact ih (isFitting_tail fitting)

theorem isFitting_trimLeft {text : List Char} (code : place.cursor = .code)
    (fitting : isFitting place text = true) : isFitting place (trimLeft text) = true := by
  rw [← List.takeWhile_append_dropWhile (p := isBlank) (l := text)] at fitting
  have suffix := isFitting_suffix fitting
  rwa [Place.after_blanks code fun _ member => List.mem_takeWhile_imp member] at suffix

/-- The words of an assertion with blanks in front of and between them. -/
theorem beginsAssertion_iff (text : List Char) :
    beginsAssertion text = true ↔ ∃ gap space rest,
      (∀ char ∈ gap, isBlank char = true) ∧ space ≠ [] ∧
      (∀ char ∈ space, isBlank char = true) ∧
      text = gap ++ ("as".toList ++ (space ++ ("const".toList ++ rest))) := by
  constructor
  · intro begins
    rw [beginsAssertion, Option.isSome_iff_exists] at begins
    simp only [Option.bind_eq_some_iff] at begins
    obtain ⟨rest, last, ⟨behind, word, skipped⟩, closing⟩ := begins
    cases behind with
    | nil => cases skipped
    | cons char behind =>
        rw [blanks?] at skipped
        split at skipped
        next blank =>
          cases skipped
          refine ⟨text.takeWhile isBlank, char :: behind.takeWhile isBlank, rest,
            fun _ member => List.mem_takeWhile_imp member, List.cons_ne_nil _ _, ?_, ?_⟩
          · rw [List.forall_mem_cons]
            exact ⟨blank, fun _ member => List.mem_takeWhile_imp member⟩
          · rw [← dropWord?_eq_some closing, List.cons_append, Text.trimLeft,
              List.takeWhile_append_dropWhile, ← dropWord?_eq_some word, Text.trimLeft,
              List.takeWhile_append_dropWhile]
        next => cases skipped
  · rintro ⟨gap, space, rest, gapBlank, nonempty, spaceBlank, rfl⟩
    have gapTrimmed : trimLeft (gap ++ ("as".toList ++ (space ++ ("const".toList ++ rest)))) =
        "as".toList ++ (space ++ ("const".toList ++ rest)) :=
      trimLeft_blanks gapBlank
    have spaceTrimmed : blanks? (space ++ ("const".toList ++ rest)) =
        some ("const".toList ++ rest) := by
      cases space with
      | nil => exact absurd rfl nonempty
      | cons char space =>
          rw [List.forall_mem_cons] at spaceBlank
          rw [List.cons_append, blanks?, if_pos spaceBlank.1, trimLeft_blanks spaceBlank.2]
          rfl
    rw [beginsAssertion, gapTrimmed, Relaxed.dropWord?_append, Option.bind_some,
      spaceTrimmed, Option.bind_some, Relaxed.dropWord?_append]
    rfl

theorem beginsAssertion_append (begins : beginsAssertion rest = true) (more : List Char) :
    beginsAssertion (rest ++ more) = true := by
  rw [beginsAssertion_iff] at begins ⊢
  obtain ⟨gap, space, behind, gapBlank, nonempty, spaceBlank, rfl⟩ := begins
  exact ⟨gap, space, behind ++ more, gapBlank, nonempty, spaceBlank, by simp⟩

theorem isFitting_front {text more : List Char}
    (fitting : isFitting place (text ++ more) = true) : isFitting place text = true := by
  induction text generalizing place with
  | nil => rfl
  | cons char text ih =>
      rw [isFitting, ih (isFitting_tail fitting), Bool.and_true, Bool.or_eq_true]
      by_cases code : place.cursor = .code
      · right
        have whole : suits place char (text ++ more) = true :=
          suits_of_isFitting fitting code
        simp only [suits, Bool.and_eq_true] at whole ⊢
        obtain ⟨⟨⟨separates, slash⟩, template⟩, assertion⟩ := whole
        refine ⟨⟨⟨separates, ?_⟩, ?_⟩, ?_⟩
        · cases text with
          | nil => simp
          | cons next text => exact slash
        · cases split : splitClosing .code 0 text with
          | none => simp
          | some pair => rwa [splitClosing_extend split, Option.all_some] at template
        · cases begins : beginsAssertion (char :: text) with
          | false => simp
          | true =>
              rwa [← List.cons_append, beginsAssertion_append begins more] at assertion
      · left
        simpa using code

end Fitting

/-- What the layout may set in front of a text it may set in front of the text's
beginning. -/
theorem Place.Free.of_front {place : Place} {text more : List Char}
    (free : place.Free (text ++ more)) : place.Free text := by
  apply free.imp_right
  intro closing
  rw [beforeClosing, firstVisible, List.find?_append] at closing
  rw [beforeClosing, firstVisible]
  cases found : text.find? fun char => !isBlank char with
  | none => rfl
  | some char =>
      rw [found] at closing
      exact closing

/-- What a bracket encloses in a respaced text, and what stands behind it. -/
structure Respaced.Split (place : Place) (first : List Char)
    (one other : List Char × List Char) : Prop where
  inside : Respaced false place one.1 other.1
  behind : ∃ closer, first = one.1 ++ closer :: one.2 ∧
    ((place.after one.1).advance closer).cursor = .code ∧
    Respaced false ((place.after one.1).advance closer) one.2 other.2

namespace Respaced

open Relaxed (isBlank_of_isSeparator)

variable {place : Place} {first second : List Char}

theorem isBracket_blank {char : Char} (blank : isBlank char = true) :
    isOpener char = false ∧ isCloser char = false := by
  have noBracket : char ∉ ['(', '[', '{', ')', ']', '}'] :=
    notMem_of_isBlank blank rfl
  simp only [List.mem_cons, List.not_mem_nil, or_false, not_or] at noBracket
  simp [isOpener, isCloser, noBracket]

theorem depthAfter_blank {char : Char} (blank : isBlank char = true) (cursor : Cursor)
    (depth : Nat) : depthAfter cursor depth char = depth := by
  simp [depthAfter, isBracket_blank blank]

theorem splitClosing (related : Respaced false place first second) (depth : Nat) :
    Option.Rel (Split place first) (Source.splitClosing place.cursor depth first)
      (Source.splitClosing place.cursor depth second) := by
  have blankStep {place : Place} {char : Char} {text : List Char}
      (code : place.cursor = .code) (blank : isBlank char = true) (depth : Nat) :
      Source.splitClosing place.cursor depth (char :: text) =
        enclose char (Source.splitClosing place.cursor depth text) := by
    rw [splitClosing_cons, if_neg (by simp [isBracket_blank blank]), depthAfter_blank blank,
      ← Place.cursor_advance, Place.advance_blank code blank]
  induction related generalizing depth with
  | nil => simp [Source.splitClosing]
  | @keep place char first second rest ih =>
      rw [splitClosing_cons, splitClosing_cons]
      split
      next closes =>
        refine .some ⟨.nil place, char, rfl, ?_, rest⟩
        rw [Place.after_nil, Place.cursor_advance, closes.1, Cursor.advance, if_neg]
        intro quoted
        rw [(not_bracket_of_mem quoted).2] at closes
        cases closes.2.1
      next =>
        rw [← Place.cursor_advance]
        have found := ih (depthAfter place.cursor depth char)
        generalize Source.splitClosing _ _ first = left at found ⊢
        generalize Source.splitClosing _ _ second = right at found ⊢
        cases found with
        | none => exact .none
        | some split =>
            obtain ⟨inside, closer, rfl, code, behind⟩ := split
            exact .some ⟨.keep inside, closer, rfl, code, behind⟩
  | @left place char first second code blank free _ rest ih =>
      rw [blankStep code blank]
      have found := ih depth
      generalize Source.splitClosing _ _ first = left at found ⊢
      generalize Source.splitClosing _ _ second = right at found ⊢
      cases found with
      | none => exact .none
      | some split =>
          obtain ⟨inside, closer, rfl, closed, behind⟩ := split
          refine .some ⟨.left code blank free.of_front (by simp) inside,
            closer, rfl, ?_, ?_⟩
          · rwa [Place.after_cons, Place.advance_blank code blank]
          · rwa [Place.after_cons, Place.advance_blank code blank]
  | @right place char first second code separates free _ rest ih =>
      rw [blankStep code (isBlank_of_isSeparator separates)]
      have found := ih depth
      generalize Source.splitClosing _ _ first = left at found ⊢
      generalize Source.splitClosing _ _ second = right at found ⊢
      cases found with
      | none => exact .none
      | some split =>
          obtain ⟨inside, closer, rfl, closed, behind⟩ := split
          exact .some ⟨.right code separates free.of_front (by simp) inside, closer, rfl, closed,
            behind⟩

end Respaced

/-- Two pieces of code of which the second is the first one spaced anew, and the
code means the same in any spacing. -/
def Alike (first second : List Char) : Prop :=
  ∃ place : Place, place.cursor = .code ∧ isFitting place first = true ∧
    Respaced false place first second

/-- Whether the first call that a text goes on with has one template at most. -/
def takesOneTemplate (text : List Char) : Bool :=
  (splitClosing .code 0 text).all fun split => areOneTemplate split.1

namespace Alike

variable {first second : List Char}

theorem trimLeft (alike : Alike first second) :
    Alike (Text.trimLeft first) (Text.trimLeft second) := by
  obtain ⟨place, code, fitting, related⟩ := alike
  exact ⟨place, code, isFitting_trimLeft code fitting, related.trimLeft_code code⟩

/-- Behind blanks both texts go on with the same sign or both do not. -/
theorem dropChar?_trimLeft {expected : Char} (solid : isSolid expected = true)
    (alike : Alike first second) :
    Option.Rel (fun one other => Alike one other ∧
        (expected = '(' → takesOneTemplate one = true))
      (dropChar? expected (Text.trimLeft first))
      (dropChar? expected (Text.trimLeft second)) := by
  obtain ⟨place, code, fitting, related⟩ := alike.trimLeft
  rcases related.cases_visible (stops_trimLeft _) (stops_trimLeft _) with
    ⟨firstNil, secondNil⟩ | ⟨char, tail, other, firstCons, secondCons, rest⟩
  · rw [firstNil, secondNil]
    exact .none
  · rw [firstCons] at fitting
    rw [firstCons, secondCons, dropChar?, dropChar?]
    split
    next same =>
      refine .some ⟨⟨place.advance char, ?_, isFitting_tail fitting, rest⟩, ?_⟩
      · rw [Place.advance_solid code (same ▸ solid)]
        exact code
      · rintro rfl
        have suit := suits_of_isFitting fitting code
        simp only [suits, same, Bool.and_eq_true] at suit
        exact suit.1.2
    next => exact .none

/-- Behind blanks both texts go on with the same name or with none. -/
theorem name?_trimLeft (alike : Alike first second) :
    Option.Rel (fun one other => one.1 = other.1 ∧ Alike one.2 other.2)
      (name? (Text.trimLeft first)) (name? (Text.trimLeft second)) := by
  obtain ⟨place, code, fitting, related⟩ := alike.trimLeft
  have found := related.name? (.inr ⟨stops_trimLeft _, stops_trimLeft _⟩)
  cases named : name? (Text.trimLeft first) with
  | none =>
      rw [named] at found
      generalize name? (Text.trimLeft second) = other at found ⊢
      cases found
      exact .none
  | some pair =>
      obtain ⟨name, rest⟩ := pair
      obtain ⟨split, parts⟩ := name?_eq_some named
      rw [named] at found
      generalize name? (Text.trimLeft second) = other at found ⊢
      cases found with
      | some same =>
          refine .some ⟨same.1, place.after name, ?_, ?_, same.2⟩
          · exact Place.cursor_after_solid code fun char member =>
              isSolid_of_isNamePart (parts char member)
          · rw [split] at fitting
            exact isFitting_suffix fitting

/-- What a call takes and what follows it. -/
theorem splitClosing (alike : Alike first second) :
    Option.Rel (fun one other => Alike one.1 other.1 ∧ Alike one.2 other.2)
      (Source.splitClosing .code 0 first) (Source.splitClosing .code 0 second) := by
  obtain ⟨place, code, fitting, related⟩ := alike
  have found := related.splitClosing 0
  rw [code] at found
  generalize Source.splitClosing .code 0 first = one at found ⊢
  generalize Source.splitClosing .code 0 second = other at found ⊢
  cases found with
  | none => exact .none
  | some split =>
      obtain ⟨inside, closer, rfl, closed, behind⟩ := split
      refine .some ⟨⟨place, code, isFitting_front fitting, inside⟩, _, closed, ?_, behind⟩
      exact isFitting_tail (isFitting_suffix fitting)

end Alike

end TwinSchema.Source
