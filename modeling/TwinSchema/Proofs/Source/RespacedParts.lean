import TwinSchema.Proofs.Source.Arguments
import TwinSchema.Proofs.Source.RespacedChain

/-!
# Parts of respaced text

A text that is spaced anew keeps its visible characters. It can be cut at any
place of either spacing, its ends can be trimmed, and its literals stay as they
are.
-/

namespace TwinSchema.Source

open Json Text

section TrimRight

variable {char : Char} {text : List Char}

theorem trimRight_of_allBlank (blank : allBlank text = true) : trimRight text = [] := by
  rw [allBlank, List.all_eq_true] at blank
  rw [trimRight, List.reverse_eq_nil_iff, List.dropWhile_eq_nil_iff]
  exact fun char member => blank char (List.mem_reverse.mp member)

theorem trimRight_cons (visible : allBlank (char :: text) = false) :
    trimRight (char :: text) = char :: trimRight text := by
  rw [trimRight, trimRight, List.reverse_cons, List.dropWhile_append]
  cases blank : allBlank text with
  | false =>
      have rest : (text.reverse.dropWhile isBlank).isEmpty = false := by
        rw [List.isEmpty_eq_false_iff]
        intro none
        rw [List.dropWhile_eq_nil_iff] at none
        rw [allBlank, List.all_eq_false] at blank
        obtain ⟨other, member, shown⟩ := blank
        exact shown (none other (List.mem_reverse.mpr member))
      rw [rest, if_neg Bool.false_ne_true, List.reverse_append]
      rfl
  | true =>
      have none := trimRight_of_allBlank blank
      rw [trimRight, List.reverse_eq_nil_iff] at none
      have shown : isBlank char = false := by
        rw [allBlank] at visible blank
        simpa [blank] using visible
      rw [none]
      simp [shown]

theorem firstVisible_trimRight (text : List Char) :
    firstVisible (trimRight text) = firstVisible text := by
  induction text with
  | nil => rfl
  | cons char text ih =>
      cases blank : allBlank (char :: text) with
      | true =>
          rw [trimRight_of_allBlank blank]
          rw [allBlank_eq_isNone, Option.isNone_iff_eq_none] at blank
          exact blank.symm
      | false =>
          rw [trimRight_cons blank]
          simp only [firstVisible, List.find?_cons] at ih ⊢
          rw [ih]

theorem isPrefix_trimRight (text : List Char) : trimRight text <+: text := by
  rw [trimRight, ← List.reverse_suffix, List.reverse_reverse]
  exact List.dropWhile_suffix isBlank

/-- Blanks at the end are no part of what is left. -/
theorem trimRight_append_blanks {blanks : List Char}
    (blank : ∀ char ∈ blanks, isBlank char = true) (text : List Char) :
    trimRight (text ++ blanks) = trimRight text := by
  rw [trimRight, trimRight, List.reverse_append, List.dropWhile_append_of_pos
    fun char member => blank char (List.mem_reverse.mp member)]

end TrimRight

namespace Respaced

open Relaxed (isBlank_of_isSeparator)

variable {place : Place} {first second : List Char}

/-- Both texts have the same visible characters. -/
theorem visible_eq (related : Respaced false place first second) :
    first.filter (fun char => !isBlank char) = second.filter (fun char => !isBlank char) := by
  induction related with
  | nil => rfl
  | keep _ ih => simp only [List.filter_cons, ih]
  | left _ blank _ _ _ ih => rw [List.filter_cons_of_neg (by simp [blank]), ih]
  | right _ separates _ _ _ ih =>
      rw [List.filter_cons_of_neg (by simp [isBlank_of_isSeparator separates]), ih]

theorem trimRight (related : Respaced false place first second) :
    Respaced false place (Text.trimRight first) (Text.trimRight second) := by
  have closing (text : List Char) :
      beforeClosing (Text.trimRight text) = beforeClosing text := by
    rw [beforeClosing, beforeClosing, firstVisible_trimRight]
  cases blank : allBlank first with
  | true =>
      rw [trimRight_of_allBlank blank, trimRight_of_allBlank (related.allBlank_eq ▸ blank)]
      exact .nil place
  | false =>
    induction related with
    | nil => cases blank
    | @keep place char first second rest ih =>
        have other := (Respaced.keep rest).allBlank_eq
        rw [trimRight_cons blank, trimRight_cons (other ▸ blank)]
        cases inner : allBlank first with
        | true =>
            rw [trimRight_of_allBlank inner, trimRight_of_allBlank (rest.allBlank_eq ▸ inner)]
            exact .keep (.nil _)
        | false => exact .keep (ih inner)
    | @left place char first second code isBlank free _ rest ih =>
        rw [trimRight_cons blank]
        have inner : allBlank first = false := by
          simpa [allBlank, isBlank] using blank
        exact .left code isBlank (free.imp_right fun before => closing first ▸ before)
          (by simp) (ih inner)
    | @right place char first second code separates free _ rest ih =>
        have whole : Respaced false place first (char :: second) :=
          .right code separates free (by simp) rest
        rw [trimRight_cons (whole.allBlank_eq ▸ blank)]
        exact .right code separates (free.imp_right fun before => closing first ▸ before)
          (by simp) (ih blank)

/-- A cut in the first text goes through the second one. -/
theorem cut_first {before behind : List Char}
    (related : Respaced false place (before ++ behind) second) :
    ∃ start rest, second = start ++ rest ∧ Respaced false place before start ∧
      Respaced false (place.after before) behind rest := by
  generalize whole : before ++ behind = first at related
  induction related generalizing before with
  | nil place =>
      obtain ⟨rfl, rfl⟩ := List.append_eq_nil_iff.mp whole
      exact ⟨[], [], rfl, .nil place, .nil place⟩
  | @keep place char first second rest ih =>
      cases before with
      | nil =>
          obtain rfl : behind = char :: first := whole
          exact ⟨[], _, rfl, .nil place, .keep rest⟩
      | cons next before =>
          obtain ⟨rfl, tail⟩ := List.cons.inj whole
          obtain ⟨start, others, rfl, front, back⟩ := ih tail
          exact ⟨next :: start, others, rfl, .keep front, back⟩
  | @left place char first second code blank free _ rest ih =>
      cases before with
      | nil =>
          obtain rfl : behind = char :: first := whole
          exact ⟨[], _, rfl, .nil place, .left code blank free nofun rest⟩
      | cons next before =>
          obtain ⟨rfl, rfl⟩ := List.cons.inj whole
          obtain ⟨start, others, rfl, front, back⟩ := ih rfl
          refine ⟨start, others, rfl, .left code blank free.of_front nofun front, ?_⟩
          rwa [Place.after_cons, Place.advance_blank code blank]
  | @right place char first second code separates free _ rest ih =>
      subst whole
      obtain ⟨start, others, rfl, front, back⟩ := ih rfl
      exact ⟨char :: start, others, rfl, .right code separates free.of_front nofun front, back⟩

/-- A cut in the second text goes through the first one. -/
theorem cut_second {before behind : List Char}
    (related : Respaced false place first (before ++ behind)) :
    ∃ start rest, first = start ++ rest ∧ Respaced false place start before ∧
      Respaced false (place.after start) rest behind := by
  generalize whole : before ++ behind = second at related
  induction related generalizing before with
  | nil place =>
      obtain ⟨rfl, rfl⟩ := List.append_eq_nil_iff.mp whole
      exact ⟨[], [], rfl, .nil place, .nil place⟩
  | @keep place char first second rest ih =>
      cases before with
      | nil =>
          obtain rfl : behind = char :: second := whole
          exact ⟨[], _, rfl, .nil place, .keep rest⟩
      | cons next before =>
          obtain ⟨rfl, tail⟩ := List.cons.inj whole
          obtain ⟨start, others, rfl, front, back⟩ := ih tail
          exact ⟨next :: start, others, rfl, .keep front, back⟩
  | @left place char first second code blank free _ rest ih =>
      obtain ⟨start, others, rfl, front, back⟩ := ih whole
      refine ⟨char :: start, others, rfl, .left code blank free.of_front nofun front, ?_⟩
      rwa [Place.after_cons, Place.advance_blank code blank]
  | @right place char first second code separates free _ rest ih =>
      cases before with
      | nil =>
          obtain rfl : behind = char :: second := whole
          exact ⟨[], first, rfl, .nil place, .right code separates free nofun rest⟩
      | cons next before =>
          obtain ⟨rfl, tail⟩ := List.cons.inj whole
          obtain ⟨start, others, rfl, front, back⟩ := ih tail
          exact ⟨start, others, rfl, .right code separates free.of_front nofun front, back⟩

/-- Without a visible character at the ends of both. -/
theorem dropLast {last : Char} (visible : isBlank last = false)
    (related : Respaced false place (first ++ [last]) (second ++ [last])) :
    Respaced false place first second := by
  have remains (text : List Char) :
      (text ++ [last]).filter (fun char => !isBlank char) ≠ [] := by
    simp [List.filter_append, visible]
  generalize wholeFirst : first ++ [last] = one at related
  generalize wholeSecond : second ++ [last] = other at related
  induction related generalizing first second with
  | nil => simp at wholeFirst
  | @keep place char one other rest ih =>
      cases first with
      | nil =>
          obtain ⟨rfl, rfl⟩ := List.cons.inj wholeFirst
          cases second with
          | nil => exact .nil place
          | cons next second =>
              obtain ⟨-, rfl⟩ := List.cons.inj wholeSecond
              exact absurd rest.visible_eq.symm (remains second)
      | cons next first =>
          obtain ⟨rfl, rfl⟩ := List.cons.inj wholeFirst
          cases second with
          | nil =>
              obtain ⟨-, rfl⟩ := List.cons.inj wholeSecond
              exact absurd rest.visible_eq (remains first)
          | cons same second =>
              obtain ⟨rfl, rfl⟩ := List.cons.inj wholeSecond
              exact .keep (ih rfl rfl)
  | @left place char one other code blank free _ rest ih =>
      cases first with
      | nil =>
          obtain ⟨rfl, -⟩ := List.cons.inj wholeFirst
          rw [visible] at blank
          cases blank
      | cons next first =>
          obtain ⟨rfl, rfl⟩ := List.cons.inj wholeFirst
          exact .left code blank free.of_front nofun (ih rfl wholeSecond)
  | @right place char one other code separates free _ rest ih =>
      subst wholeFirst
      cases second with
      | nil =>
          obtain ⟨rfl, -⟩ := List.cons.inj wholeSecond
          rw [isBlank_of_isSeparator separates] at visible
          cases visible
      | cons next second =>
          obtain ⟨rfl, rfl⟩ := List.cons.inj wholeSecond
          exact .right code separates free.of_front nofun (ih rfl rfl)

/-- From inside a literal both texts are the same up to its closing quote, and if
it is never closed up to their ends. -/
theorem literal {quote : Char} (different : quote ≠ '\\')
    (inside : place.cursor = .literal quote) (related : Respaced false place first second) :
    first = second ∨ ∃ body tail other, LiteralBody quote body ∧
      first = body ++ quote :: tail ∧ second = body ++ quote :: other ∧
      (place.after (body ++ [quote])).cursor = .code ∧
      (place.after (body ++ [quote])).loose = false ∧
      Respaced false (place.after (body ++ [quote])) tail other := by
  induction length : first.length using Nat.strongRecOn generalizing place first second with
  | _ size ih =>
  have noCode : place.cursor ≠ .code := by simp [inside]
  rcases related.cases_literal noCode with ⟨rfl, rfl⟩ | ⟨char, tail, other, rfl, rfl, rest⟩
  · exact .inl rfl
  rw [List.length_cons] at length
  by_cases closes : char = quote
  · subst closes
    have cursor : (place.advance char).cursor = .code := by
      rw [Place.cursor_advance, inside, Cursor.advance, if_neg different, if_pos rfl]
    exact .inr ⟨[], tail, other, .nil, rfl, rfl, cursor,
      Place.loose_advance_literal noCode char, rest⟩
  by_cases escapes : char = '\\'
  · subst escapes
    have escape : (place.advance '\\').cursor = .escape quote := by
      rw [Place.cursor_advance, inside, Cursor.advance, if_pos rfl]
    rcases rest.cases_literal (by simp [escape]) with
      ⟨rfl, rfl⟩ | ⟨next, tail, other, rfl, rfl, others⟩
    · exact .inl rfl
    have cursor : ((place.advance '\\').advance next).cursor = .literal quote := by
      rw [Place.cursor_advance, escape, Cursor.advance]
    rw [List.length_cons] at length
    rcases ih tail.length (by omega) cursor others rfl with
      rfl | ⟨body, tail, other, within, rfl, rfl, behind⟩
    · exact .inl rfl
    · exact .inr ⟨'\\' :: next :: body, tail, other, .escaped within, rfl, rfl, behind⟩
  · have cursor : (place.advance char).cursor = .literal quote := by
      rw [Place.cursor_advance, inside, Cursor.advance, if_neg escapes, if_neg closes]
    rcases ih tail.length (by omega) cursor rest rfl with
      rfl | ⟨body, tail, other, within, rfl, rfl, behind⟩
    · exact .inl rfl
    · exact .inr ⟨char :: body, tail, other, .plain escapes closes within, rfl, rfl, behind⟩

end Respaced

/-- What is split off as a literal is closed by its quote. -/
theorem quotedRest?_eq_some {quote : Char} {text : List Char} :
    ∀ {literal rest : List Char}, quotedRest? quote text = some (literal, rest) →
      ∃ body, LiteralBody quote body ∧ literal = body ++ [quote] ∧
        text = body ++ quote :: rest := by
  fun_induction quotedRest? quote text with
  | case1 => rintro _ _ ⟨⟩
  | case2 =>
      rintro _ _ ⟨⟩
      exact ⟨[], .nil, rfl, rfl⟩
  | case3 => rintro _ _ ⟨⟩
  | case4 escaped after _ ih =>
      intro literal rest found
      obtain ⟨⟨inner, behind⟩, quoted, same⟩ := Option.map_eq_some_iff.mp found
      cases same
      obtain ⟨body, inside, rfl, rfl⟩ := ih quoted
      exact ⟨'\\' :: escaped :: body, .escaped inside, rfl, rfl⟩
  | case5 char tail notQuote notEscape ih =>
      intro literal rest found
      obtain ⟨⟨inner, behind⟩, quoted, same⟩ := Option.map_eq_some_iff.mp found
      cases same
      obtain ⟨body, inside, rfl, rfl⟩ := ih quoted
      exact ⟨char :: body, .plain notEscape notQuote inside, rfl, rfl⟩

end TwinSchema.Source
