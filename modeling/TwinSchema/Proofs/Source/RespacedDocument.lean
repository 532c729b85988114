import TwinSchema.Proofs.Relaxed.PaddedReading
import TwinSchema.Proofs.Source.RespacedParts

/-!
# Respaced documents

Data in source text and the same data spaced anew are decoded to the same value:
without the blanks that the layout sets they are one document, of which both are
padded forms.
-/

namespace TwinSchema.Source

open Json Text
open Relaxed (convertSingleQuotes requote stripComments isBlank_of_isSeparator)

variable {place : Place} {first second : List Char}

/-- A text as the document that the repairs are made on. -/
def asDocument (text : List Char) : List Char :=
  convertSingleQuotes (stripComments documentQuotes text)

section Document

variable {char : Char} {text : List Char}

theorem asDocument_cons (noQuote : char ∉ documentQuotes)
    (noComment : ¬(char = '/' ∧ (text.head? = some '/' ∨ text.head? = some '*'))) :
    asDocument (char :: text) = char :: asDocument text := by
  have apart : char ≠ '"' ∧ char ≠ '\'' := by simpa [documentQuotes] using noQuote
  rw [asDocument, stripComments, Relaxed.stripFrom_plain noQuote noComment,
    convertSingleQuotes, requote, if_neg apart.1, if_neg apart.2]
  rfl

theorem asDocument_blank (blank : isBlank char = true) (text : List Char) :
    asDocument (char :: text) = char :: asDocument text := by
  have noQuote : char ∉ documentQuotes := by
    simp only [documentQuotes, List.mem_cons, List.not_mem_nil, or_false]
    rintro (rfl | rfl) <;> cases blank
  apply asDocument_cons noQuote
  rintro ⟨rfl, -⟩
  cases blank

theorem mem_sourceQuotes_of_mem (quoted : char ∈ documentQuotes) : char ∈ sourceQuotes := by
  simp only [documentQuotes, sourceQuotes, List.mem_cons, List.not_mem_nil, or_false] at quoted ⊢
  exact quoted.imp_right .inl

theorem notMem_sourceQuotes (noQuote : char ∉ documentQuotes) (noTemplate : char ≠ '\x60') :
    char ∉ sourceQuotes := by
  simp only [documentQuotes, List.mem_cons, List.not_mem_nil, or_false, not_or] at noQuote
  simp [sourceQuotes, noQuote, noTemplate]

/-- A closed literal is one in double quotes. -/
theorem exists_asDocument_literal {quote : Char} (quoted : quote ∈ documentQuotes)
    {body : List Char} (inside : LiteralBody quote body) :
    ∃ doubled, LiteralBody '"' doubled ∧ ∀ text,
      asDocument (quote :: (body ++ quote :: text)) =
        '"' :: (doubled ++ '"' :: asDocument text) := by
  have different := ne_escape_of_mem (mem_sourceQuotes_of_mem quoted)
  obtain ⟨doubled, within, requoted⟩ := Relaxed.exists_requote quoted inside
  refine ⟨doubled, within, fun text => ?_⟩
  rw [asDocument, stripComments, Relaxed.stripFrom_literal inside quoted different,
    convertSingleQuotes, requoted]
  rfl

theorem beforeClosing_quote {quote : Char} (quoted : quote ∈ documentQuotes)
    (text : List Char) : beforeClosing (quote :: text) = false := by
  simp only [documentQuotes, List.mem_cons, List.not_mem_nil, or_false] at quoted
  rcases quoted with rfl | rfl <;> rfl

/-- A literal begins with a double quote, whether it is closed or not. -/
theorem exists_asDocument_quote {quote : Char} (quoted : quote ∈ documentQuotes)
    (text : List Char) : ∃ rest, asDocument (quote :: text) = '"' :: rest := by
  rw [asDocument, stripComments, Relaxed.stripFrom_quote quoted, convertSingleQuotes]
  simp only [documentQuotes, List.mem_cons, List.not_mem_nil, or_false] at quoted
  rcases quoted with rfl | rfl
  · rw [requote, if_pos rfl]
    exact ⟨_, rfl⟩
  · rw [requote, if_neg (by decide), if_pos rfl]
    exact ⟨_, rfl⟩

end Document

theorem loosens_of_loose_advance {char : Char} (code : place.cursor = .code)
    (loose : (place.advance char).loose = true) : loosens place.loose char = true := by
  obtain ⟨cursor, depth, before⟩ := place
  subst code
  simp only [Place.advance, Bool.or_eq_true, Bool.and_eq_true] at loose
  simp only [loosens, opensGap, Bool.or_eq_true, Bool.and_eq_true]
  rcases loose with ((brace | bracket) | comma) | blank
  · exact .inl (.inl (.inl brace))
  · exact .inl (.inl (.inr bracket))
  · exact .inl (.inr comma.1)
  · exact .inr blank

/-- A document of which two texts are padded forms. -/
structure Tight (place : Place) (first second tight : List Char) : Prop where
  closing : beforeClosing tight = beforeClosing first
  one : Relaxed.Padded place.loose tight (asDocument first)
  other : Relaxed.Padded place.loose tight (asDocument second)

namespace Tight

variable {char : Char} {tight : List Char}

/-- A blank that the layout sets in the first text only. -/
theorem left (found : Tight place first second tight) (blank : isBlank char = true)
    (separates : isSeparator char = true) (free : place.Free first) :
    Tight place (char :: first) second tight where
  closing := by rw [found.closing, beforeClosing_blank blank]
  one := by
    rw [asDocument_blank blank]
    exact .pad separates (free.imp_right fun before => found.closing ▸ before) found.one
  other := found.other

/-- A blank that the layout sets in the second text only. -/
theorem right (found : Tight place first second tight) (separates : isSeparator char = true)
    (free : place.Free first) : Tight place first (char :: second) tight where
  closing := found.closing
  one := found.one
  other := by
    rw [asDocument_blank (isBlank_of_isSeparator separates)]
    exact .pad separates (free.imp_right fun before => found.closing ▸ before) found.other

/-- A character of code that both texts have. -/
theorem keep (found : Tight (place.advance char) first second tight)
    (code : place.cursor = .code) (noQuote : char ∉ documentQuotes)
    (one : asDocument (char :: first) = char :: asDocument first)
    (other : asDocument (char :: second) = char :: asDocument second) :
    Tight place (char :: first) (char :: second) (char :: tight) := by
  have apart : char ≠ '"' := by
    rintro rfl
    exact noQuote (by decide)
  have looser : (place.advance char).loose = true → loosens place.loose char = true :=
    loosens_of_loose_advance code
  refine ⟨?_, one ▸ .keep apart (found.one.mono looser),
    other ▸ .keep apart (found.other.mono looser)⟩
  cases blank : isBlank char with
  | true => rw [beforeClosing_blank blank, beforeClosing_blank blank, found.closing]
  | false => rw [beforeClosing_visible blank, beforeClosing_visible blank]

/-- A closed literal that both texts have. -/
theorem exists_literal {behind : Place} (found : Tight behind first second tight)
    (tightly : behind.loose = false) {quote : Char} (quoted : quote ∈ documentQuotes)
    {body : List Char} (inside : LiteralBody quote body) :
    ∃ tight, Tight place (quote :: (body ++ quote :: first))
      (quote :: (body ++ quote :: second)) tight := by
  obtain ⟨doubled, within, written⟩ := exists_asDocument_literal quoted inside
  obtain ⟨-, one, other⟩ := found
  rw [tightly] at one other
  refine ⟨'"' :: (doubled ++ '"' :: tight), ?_, ?_, ?_⟩
  · rw [beforeClosing_quote quoted]
    rfl
  · rw [written]
    exact .literal within one
  · rw [written]
    exact .literal within other

/-- A literal that both texts leave open. -/
theorem exists_open {quote : Char} (quoted : quote ∈ documentQuotes) (text : List Char) :
    ∃ tight, Tight place (quote :: text) (quote :: text) tight := by
  refine ⟨asDocument (quote :: text), ?_, .same _ _, .same _ _⟩
  obtain ⟨rest, written⟩ := exists_asDocument_quote quoted text
  rw [beforeClosing_quote quoted, written]
  rfl

/-- A template that begins in both texts: what stands behind a backquote is no part of the
document. -/
theorem template (plain : asDocument ('\x60' :: first) = '\x60' :: asDocument first)
    (plainOther : asDocument ('\x60' :: second) = '\x60' :: asDocument second) :
    Tight place ('\x60' :: first) ('\x60' :: second) ['\x60'] where
  closing := rfl
  one := plain ▸ .stop _ _ _
  other := plainOther ▸ .stop _ _ _

end Tight

namespace Respaced

/-- No comment begins in code of either spacing. -/
theorem noComment {char : Char} (code : place.cursor = .code)
    (fitting : isFitting place (char :: first) = true)
    (rest : Respaced false (place.advance char) first second) :
    ¬(char = '/' ∧ (first.head? = some '/' ∨ first.head? = some '*')) ∧
      ¬(char = '/' ∧ (second.head? = some '/' ∨ second.head? = some '*')) := by
  have suit := suits_of_isFitting fitting code
  simp only [suits, Bool.and_eq_true] at suit
  have plain : ¬(char = '/' ∧ (first.head? = some '/' ∨ first.head? = some '*')) := by
    rintro ⟨rfl, begins⟩
    have slash := suit.1.1.2
    rcases begins with begins | begins <;> rw [begins] at slash <;> cases slash
  refine ⟨plain, ?_⟩
  rintro ⟨rfl, begins⟩
  have steady := Place.steady_advance (by decide : isSolid '/' = true) place
  apply plain
  rw [rest.head?_eq (by decide) steady, rest.head?_eq (by decide) steady]
  exact ⟨rfl, begins⟩

/-- Code in which no comment begins, without the blanks that the layout sets. -/
theorem exists_tight (related : Respaced false place first second)
    (code : place.cursor = .code) (fitting : isFitting place first = true) :
    ∃ tight, Tight place first second tight := by
  induction length : first.length + second.length using Nat.strongRecOn
    generalizing place first second with
  | _ size ih =>
  cases related with
  | nil => exact ⟨[], rfl, .same _ _, .same _ _⟩
  | @left _ char first second _ blank free _ rest =>
      rw [List.length_cons] at length
      have inner := isFitting_tail fitting
      rw [Place.advance_blank code blank] at inner
      obtain ⟨tight, found⟩ := ih _ (by omega) rest code inner rfl
      have suit := suits_of_isFitting fitting code
      simp only [suits, blank, Bool.not_true, Bool.false_or, Bool.and_eq_true] at suit
      exact ⟨tight, found.left blank suit.1.1.1 free⟩
  | @right _ char first second _ separates free _ rest =>
      rw [List.length_cons] at length
      obtain ⟨tight, found⟩ := ih _ (by omega) rest code fitting rfl
      exact ⟨tight, found.right separates free⟩
  | @keep _ char first second rest =>
      have inner := isFitting_tail fitting
      obtain ⟨plain, plainOther⟩ := rest.noComment code fitting
      by_cases quoted : char ∈ documentQuotes
      · have source := mem_sourceQuotes_of_mem quoted
        have inside : (place.advance char).cursor = .literal char := by
          rw [Place.cursor_advance, code, Cursor.advance, if_pos source]
        rcases rest.literal (ne_escape_of_mem source) inside with
          rfl | ⟨body, tail, other, within, rfl, rfl, closed, tightly, behind⟩
        · exact Tight.exists_open quoted first
        · have fits : isFitting ((place.advance char).after (body ++ [char])) tail = true := by
            apply isFitting_suffix
            simpa using inner
          simp only [List.length_cons, List.length_append] at length
          obtain ⟨tight, found⟩ := ih _ (by omega) behind closed fits rfl
          exact found.exists_literal tightly quoted within
      · have one := asDocument_cons quoted plain
        have other := asDocument_cons quoted plainOther
        by_cases template : char = '\x60'
        · subst template
          exact ⟨['\x60'], .template one other⟩
        · have inside : (place.advance char).cursor = .code := by
            rw [Place.cursor_advance, code, Cursor.advance,
              if_neg (notMem_sourceQuotes quoted template)]
          simp only [List.length_cons] at length
          obtain ⟨tight, found⟩ := ih _ (by omega) rest inside inner rfl
          exact ⟨char :: tight, found.keep code quoted one other⟩

/-- Code in any spacing is decoded to the same value, or refused alike. -/
theorem decode_eq (related : Respaced false place first second) (code : place.cursor = .code)
    (fitting : isFitting place first = true) :
    (Relaxed.decode first).mapError Relaxed.refusedDigits =
      (Relaxed.decode second).mapError Relaxed.refusedDigits := by
  obtain ⟨tight, -, one, other⟩ := related.exists_tight code fitting
  rw [Relaxed.decode, Relaxed.decode, related.allBlank_eq]
  split
  next => rfl
  next => exact Relaxed.decodeClean_padded one other

end Respaced

end TwinSchema.Source
