import TwinSchema.Proofs.Relaxed.Comment
import TwinSchema.Proofs.Source.Respaced

/-!
# Respaced comments

The layout takes comments for code. Where it finds nothing in them that it would break
lines at or take for a literal, the comments of a text and of the same text laid out
anew end at the same places, and without its comments the text is spaced anew.
-/

namespace TwinSchema.Source

open Json Text
open Relaxed (Region stripFrom stripComments isBlank_of_isSeparator)

variable {place below : Place} {first second : List Char}

/-- One step of a scan for comments: whether a character stays, whether the next one is
passed over, and where the scan stands then. -/
structure StripStep where
  stays : Bool
  skips : Bool
  behind : Region

/-- The step of a scan at a character, by the character after it. -/
def stripStep (region : Region) (char : Char) (next : Option Char) : StripStep :=
  match region with
  | .text cursor =>
      if cursor = .code ∧ char = '/' ∧ next = some '/' then ⟨false, true, .lineComment⟩
      else if cursor = .code ∧ char = '/' ∧ next = some '*' then ⟨false, true, .blockComment⟩
      else ⟨true, false, .text (cursor.advance sourceQuotes char)⟩
  | .lineComment =>
      if isLineEnd char then ⟨true, false, .text .code⟩ else ⟨false, false, .lineComment⟩
  | .blockComment =>
      if char = '*' ∧ next = some '/' then ⟨false, true, .text .code⟩
      else ⟨char == '\n', false, .blockComment⟩

/-- What remains of a text whose first character may be passed over. -/
def remainder (skips : Bool) (region : Region) (text : List Char) : List Char :=
  stripFrom sourceQuotes region (if skips then text.tail else text)

theorem isLineEnd_iff (char : Char) : isLineEnd char = true ↔ char = '\r' ∨ char = '\n' := by
  simp [isLineEnd]

theorem stripFrom_cons (region : Region) (char : Char) (rest : List Char) :
    stripFrom sourceQuotes region (char :: rest) =
      (if (stripStep region char rest.head?).stays then [char] else []) ++
        remainder (stripStep region char rest.head?).skips
          (stripStep region char rest.head?).behind rest := by
  cases region with
  | text cursor =>
      rw [stripStep]
      split
      next starts =>
        obtain ⟨rfl, rfl, next⟩ := starts
        obtain ⟨after, rfl⟩ := List.head?_eq_some_iff.mp next
        rfl
      next noLine =>
        split
        next starts =>
          obtain ⟨rfl, rfl, next⟩ := starts
          obtain ⟨after, rfl⟩ := List.head?_eq_some_iff.mp next
          rfl
        next noBlock =>
          cases cursor with
          | literal | escape => rfl
          | code =>
              by_cases quoted : char ∈ sourceQuotes
              · rw [Relaxed.stripFrom_quote quoted, Cursor.advance, if_pos quoted]
                rfl
              · rw [Relaxed.stripFrom_plain quoted (by simp_all), Cursor.advance,
                  if_neg quoted]
                rfl
  | lineComment =>
      simp only [stripFrom, stripStep, ← isLineEnd_iff]
      split <;> rfl
  | blockComment =>
      rw [stripStep]
      split
      next ends =>
        obtain ⟨rfl, next⟩ := ends
        obtain ⟨after, rfl⟩ := List.head?_eq_some_iff.mp next
        rfl
      next noEnd =>
        rw [Relaxed.stripFrom_block noEnd]
        by_cases feed : char = '\n' <;> simp [feed, remainder]

/-- The first character that a comment begins with or ends at is followed in both texts
by the same sign or by none. -/
theorem stripStep_eq {region : Region} {char : Char}
    (rest : Respaced true (place.advance char) first second) :
    stripStep region char first.head? = stripStep region char second.head? := by
  have same (sign : Char) (solid : isSolid char = true) (solidSign : isSolid sign = true) :
      first.head? = some sign ↔ second.head? = some sign :=
    rest.head?_eq solidSign (Place.steady_advance solid place)
  cases region with
  | text cursor =>
      by_cases slash : char = '/'
      · subst slash
        simp only [stripStep, same '/' (by decide) (by decide),
          same '*' (by decide) (by decide)]
      · simp [stripStep, slash]
  | lineComment => rfl
  | blockComment =>
      by_cases star : char = '*'
      · subst star
        simp only [stripStep, same '/' (by decide) (by decide)]
      · simp [stripStep, star]

/-- Whether the layout passes over a character of a comment. -/
def isPlainAt (place : Place) (char : Char) : Bool :=
  isBlank char || isSolid char || (char == ',' && place.depth == 0)

/-- Whether the layout passes over the comments of a text, from a step of a scan for them
on. -/
def isPlainFrom : (skips : Bool) → Region → Place → List Char → Bool
  | _, _, _, [] => true
  | true, region, place, char :: rest => isPlainFrom false region (place.advance char) rest
  | false, region, place, char :: rest =>
      let step := stripStep region char rest.head?
      (step.stays || isPlainAt place char) &&
        isPlainFrom step.skips step.behind (place.advance char) rest

/-! ## Places -/

/-- A place in a text and the place that remains of it without the comments: the layout
sets blanks there at least as freely. -/
structure Place.Covers (place below : Place) : Prop where
  cursor : below.cursor = place.cursor
  depth : below.depth = place.depth
  loose : place.loose = true → below.loose = true

theorem Place.Covers.advance (covers : place.Covers below) (char : Char) :
    (place.advance char).Covers (below.advance char) := by
  obtain ⟨cursor, depth, loose⟩ := place
  obtain ⟨cursorBelow, depthBelow, looseBelow⟩ := below
  obtain ⟨rfl, rfl, looser⟩ := covers
  cases cursorBelow with
  | literal | escape => exact ⟨rfl, rfl, nofun⟩
  | code =>
      refine ⟨rfl, rfl, fun loosened => ?_⟩
      simp only [Place.advance, Bool.or_eq_true, Bool.and_eq_true] at loosened ⊢
      exact loosened.imp_right (And.imp_left looser)

/-- Plain characters of a comment lead nowhere. -/
theorem Place.Covers.advance_plain (covers : place.Covers below) {char : Char}
    (code : place.cursor = .code) (plain : isPlainAt place char = true) :
    (place.advance char).Covers below ∧
      (place.loose = false → (place.advance char).loose = false) := by
  simp only [isPlainAt, Bool.or_eq_true, Bool.and_eq_true, beq_iff_eq] at plain
  rcases plain with (blank | solid) | ⟨rfl, top⟩
  · rw [Place.advance_blank code blank]
    exact ⟨covers, id⟩
  · rw [Place.advance_solid code solid]
    exact ⟨⟨covers.cursor, covers.depth, nofun⟩, fun _ => rfl⟩
  · obtain ⟨cursor, depth, loose⟩ := place
    obtain rfl : cursor = .code := code
    obtain rfl : depth = 0 := top
    have tight : (Place.advance ⟨.code, 0, loose⟩ ',').loose = false := by
      cases loose <;> rfl
    exact ⟨⟨covers.cursor, covers.depth, by simp [tight]⟩, fun _ => tight⟩

/-- Where a scan for comments stands in a text: in comments, and at the second character
of the two that begin or end one, the layout sets no blanks. -/
structure Standing (skips : Bool) (region : Region) (place : Place) (text : List Char) :
    Prop where
  cursor : place.cursor = region.cursor
  tight : (∀ cursor, region ≠ .text cursor) → place.loose = false
  sign : skips = true → place.cursor = .code ∧ place.loose = false ∧
    ∃ sign tail, isSolid sign = true ∧ text = sign :: tail

namespace Standing

variable {skips : Bool} {region : Region} {char : Char} {text : List Char}

/-- Where a character is no part of what stays, the scan takes it for code. -/
theorem code_of_stays (standing : Standing false region place text) {next : Option Char}
    (gone : (stripStep region char next).stays = false) : place.cursor = .code := by
  rw [standing.cursor]
  cases region with
  | text cursor =>
      rw [stripStep] at gone
      split at gone
      next starts => exact starts.1
      next =>
        split at gone
        next starts => exact starts.1
        next => cases gone
  | lineComment | blockComment => rfl

/-- Behind a solid character of code nothing is open to blanks. -/
theorem tight_solid (code : place.cursor = .code) (solid : isSolid char = true) :
    (place.advance char).cursor = .code ∧ (place.advance char).loose = false := by
  rw [Place.advance_solid code solid]
  exact ⟨code, rfl⟩

/-- Where the layout sets no blanks, a plain character of a comment changes nothing. -/
theorem tight_plain (code : place.cursor = .code) (tight : place.loose = false)
    (plain : isPlainAt place char = true) :
    (place.advance char).cursor = .code ∧ (place.advance char).loose = false := by
  have covers : place.Covers place := ⟨rfl, rfl, id⟩
  obtain ⟨behind, tightly⟩ := covers.advance_plain code plain
  exact ⟨behind.cursor.symm.trans code, tightly tight⟩

theorem advance_text {cursor : Cursor}
    (standing : Standing false (.text cursor) place (char :: text)) :
    Standing (stripStep (.text cursor) char text.head?).skips
      (stripStep (.text cursor) char text.head?).behind (place.advance char) text := by
  have solid : isSolid '/' = true := by decide
  rw [stripStep]
  split
  next starts =>
    obtain ⟨rfl, rfl, next⟩ := starts
    obtain ⟨after, rfl⟩ := List.head?_eq_some_iff.mp next
    obtain ⟨code, tight⟩ := tight_solid standing.cursor solid
    exact ⟨code, fun _ => tight, fun _ => ⟨code, tight, '/', after, by decide, rfl⟩⟩
  next =>
    split
    next starts =>
      obtain ⟨rfl, rfl, next⟩ := starts
      obtain ⟨after, rfl⟩ := List.head?_eq_some_iff.mp next
      obtain ⟨code, tight⟩ := tight_solid standing.cursor solid
      exact ⟨code, fun _ => tight, fun _ => ⟨code, tight, '*', after, by decide, rfl⟩⟩
    next =>
      refine ⟨?_, fun noText => absurd rfl (noText _), nofun⟩
      rw [Place.cursor_advance, standing.cursor]
      rfl

theorem advance_lineComment (standing : Standing false .lineComment place (char :: text))
    (plain : isLineEnd char = true ∨ isPlainAt place char = true) :
    Standing (stripStep .lineComment char text.head?).skips
      (stripStep .lineComment char text.head?).behind (place.advance char) text := by
  rw [stripStep]
  split
  next ends =>
    have blank : isBlank char = true := by
      rcases (isLineEnd_iff char).mp ends with rfl | rfl <;> rfl
    rw [Place.advance_blank standing.cursor blank]
    exact ⟨standing.cursor, fun noText => absurd rfl (noText _), nofun⟩
  next noEnd =>
    have tight := standing.tight nofun
    obtain ⟨code, tightly⟩ := tight_plain standing.cursor tight (plain.resolve_left noEnd)
    exact ⟨code, fun _ => tightly, nofun⟩

theorem advance_blockComment (standing : Standing false .blockComment place (char :: text))
    (plain : char = '*' ∧ text.head? = some '/' ∨ isPlainAt place char = true) :
    Standing (stripStep .blockComment char text.head?).skips
      (stripStep .blockComment char text.head?).behind (place.advance char) text := by
  rw [stripStep]
  split
  next ends =>
    obtain ⟨rfl, next⟩ := ends
    obtain ⟨after, rfl⟩ := List.head?_eq_some_iff.mp next
    have solid : isSolid '*' = true := by decide
    obtain ⟨code, tight⟩ := tight_solid standing.cursor solid
    exact ⟨code, fun noText => absurd rfl (noText _),
      fun _ => ⟨code, tight, '/', after, by decide, rfl⟩⟩
  next noEnd =>
    have tight := standing.tight nofun
    obtain ⟨code, tightly⟩ := tight_plain standing.cursor tight (plain.resolve_left noEnd)
    exact ⟨code, fun _ => tightly, nofun⟩

theorem advance (standing : Standing false region place (char :: text))
    (plain : ((stripStep region char text.head?).stays || isPlainAt place char) = true) :
    Standing (stripStep region char text.head?).skips
      (stripStep region char text.head?).behind (place.advance char) text := by
  cases region with
  | text cursor => exact standing.advance_text
  | lineComment =>
      refine standing.advance_lineComment ?_
      by_cases ends : isLineEnd char = true
      · exact .inl ends
      · simpa [stripStep, ends] using plain
  | blockComment =>
      refine standing.advance_blockComment ?_
      by_cases ends : char = '*' ∧ text.head? = some '/'
      · exact .inl ends
      · rw [stripStep, if_neg ends, Bool.or_eq_true, beq_iff_eq] at plain
        -- a line feed stays, and it is plain as every blank is
        rcases plain with rfl | plain
        · exact .inr rfl
        · exact .inr plain

/-- The second character of the two that begin or end a comment is passed over in place. -/
theorem of_sign (standing : Standing true region place (char :: text)) :
    isSolid char = true ∧ place.advance char = place ∧ Standing false region place text := by
  obtain ⟨code, tight, sign, tail, solid, same⟩ := standing.sign rfl
  obtain ⟨rfl, rfl⟩ := List.cons.inj same
  have back : place.advance char = place := by
    rw [Place.advance_solid code solid, ← tight]
  exact ⟨solid, back, standing.cursor, standing.tight, nofun⟩

/-- The layout sets no blanks between the two characters that begin or end a comment. -/
theorem not_free_of_sign (standing : Standing true region place text) : ¬ place.Free text := by
  obtain ⟨-, tight, sign, tail, solid, rfl⟩ := standing.sign rfl
  rintro (loose | closing)
  · rw [tight] at loose
    cases loose
  · rw [beforeClosing_solid solid] at closing
    cases closing

end Standing

/-- At a blank of code a scan for comments stays where it is, or a line comment ends. -/
theorem stripStep_blank {region : Region} {char : Char} (code : region.cursor = .code)
    (blank : isBlank char = true) (next : Option Char) :
    (stripStep region char next).skips = false ∧
      ((stripStep region char next).behind = region ∨
        region = .lineComment ∧ isLineEnd char = true ∧
          (stripStep region char next).behind = .text .code) := by
  have noSlash : char ≠ '/' := by rintro rfl; cases blank
  have noStar : char ≠ '*' := by rintro rfl; cases blank
  cases region with
  | text cursor =>
      obtain rfl : cursor = .code := code
      have advanced : Cursor.code.advance sourceQuotes char = .code := by
        have place := Place.cursor_advance {} char
        rw [Place.advance_blank rfl blank] at place
        exact place.symm
      simp [stripStep, noSlash, advanced]
  | lineComment =>
      rw [stripStep]
      split
      next ends => exact ⟨rfl, .inr ⟨rfl, ends, rfl⟩⟩
      next => exact ⟨rfl, .inl rfl⟩
  | blockComment => simp [stripStep, noStar]

theorem not_isPlainAt_of_closesGap {char : Char} (closes : closesGap char = true)
    (place : Place) : isPlainAt place char = false := by
  rcases closesGap_iff.mp closes with rfl | rfl <;> rfl

theorem remainder_nil (skips : Bool) (region : Region) : remainder skips region [] = [] := by
  cases skips <;> rcases region with (_ | _ | _) | _ | _ <;> rfl

theorem isPlainFrom_cons {region : Region} {char : Char} {text : List Char}
    (plain : isPlainFrom false region place (char :: text) = true) :
    ((stripStep region char text.head?).stays || isPlainAt place char) = true ∧
      isPlainFrom (stripStep region char text.head?).skips
        (stripStep region char text.head?).behind (place.advance char) text = true := by
  rwa [isPlainFrom, Bool.and_eq_true] at plain

/-- A plain comment does not end in front of a closing sign, so what stays is in front of
it as well. -/
theorem beforeClosing_stripFrom {region : Region} {text : List Char}
    (standing : Standing false region place text) (code : place.cursor = .code)
    (plain : isPlainFrom false region place text = true)
    (closing : beforeClosing text = true) :
    beforeClosing (stripFrom sourceQuotes region text) = true := by
  induction text generalizing region with
  | nil =>
      have none : stripFrom sourceQuotes region [] = [] := remainder_nil false region
      rw [none]
      rfl
  | cons char text ih =>
      obtain ⟨here, behind⟩ := isPlainFrom_cons plain
      have next := standing.advance here
      rw [stripFrom_cons]
      cases blank : isBlank char with
      | true =>
          obtain ⟨noSkip, -⟩ := stripStep_blank (standing.cursor ▸ code) blank text.head?
          rw [beforeClosing_blank blank] at closing
          rw [Place.advance_blank code blank, noSkip] at next behind
          have rest := ih next behind closing
          rw [noSkip]
          split
          next => rwa [List.singleton_append, beforeClosing_blank blank]
          next => exact rest
      | false =>
          rw [beforeClosing_visible blank] at closing
          rw [not_isPlainAt_of_closesGap closing, Bool.or_false] at here
          rwa [here, if_pos rfl, List.singleton_append, beforeClosing_visible blank]

/-- At a blank that only the first text holds, what is left of the second text is what is
left of it behind that blank. -/
theorem Standing.remainder_left {region : Region} {char : Char}
    (standing : Standing false region place (char :: first)) (code : place.cursor = .code)
    (blank : isBlank char = true)
    (ends : isLineEnd char = true → place.loose = true ∨ second.head? = some '\n')
    (next : Option Char) :
    remainder false region second =
      remainder false (stripStep region char next).behind second := by
  obtain ⟨-, same | ⟨rfl, atEnd, ended⟩⟩ := stripStep_blank (standing.cursor ▸ code) blank next
  · rw [same]
  · have feed := (ends atEnd).resolve_left (by simp [standing.tight nofun])
    obtain ⟨tail, rfl⟩ := List.head?_eq_some_iff.mp feed
    rw [ended]
    rfl

/-- At a blank that only the second text holds, a scan of the first text stands as it does
behind that blank: where it ends a line comment, the comment ends there in both texts. -/
theorem Standing.remainder_right {region : Region} {char : Char}
    (standing : Standing false region place first) (code : place.cursor = .code)
    (plain : isPlainFrom false region place first = true) (blank : isBlank char = true)
    (free : place.Free first)
    (ends : isLineEnd char = true → place.loose = true ∨ Stops isBlank first)
    (next : Option Char) :
    Standing false (stripStep region char next).behind place first ∧
      isPlainFrom false (stripStep region char next).behind place first = true ∧
      remainder false region first =
        remainder false (stripStep region char next).behind first := by
  obtain ⟨-, same | ⟨rfl, atEnd, ended⟩⟩ := stripStep_blank (standing.cursor ▸ code) blank next
  · rw [same]
    exact ⟨standing, plain, rfl⟩
  · have tight := standing.tight nofun
    have stops := (ends atEnd).resolve_left (by simp [tight])
    rw [ended]
    refine ⟨⟨code, fun noText => absurd rfl (noText _), nofun⟩, ?_⟩
    cases first with
    | nil => exact ⟨rfl, by rw [remainder_nil, remainder_nil]⟩
    | cons sign first =>
        -- a comment that goes on here would hold the closing sign
        have visible := stops sign rfl
        have closing := free.resolve_left (by simp [tight])
        rw [beforeClosing_visible visible] at closing
        obtain ⟨here, -⟩ := isPlainFrom_cons plain
        rw [not_isPlainAt_of_closesGap closing, Bool.or_false, stripStep] at here
        split at here
        next atEnd => rcases (isLineEnd_iff sign).mp atEnd with rfl | rfl <;> cases visible
        next => cases here

namespace Respaced

/-- Both texts are spaced anew without their comments, if the layout passes over these. -/
theorem remainder {skips : Bool} {region : Region}
    (standing : Standing skips region place first) (covers : place.Covers below)
    (plain : isPlainFrom skips region place first = true)
    (related : Respaced true place first second) :
    Respaced false below (Source.remainder skips region first)
      (Source.remainder skips region second) := by
  induction related generalizing skips region below with
  | nil =>
      rw [remainder_nil]
      exact .nil below
  | @keep place char first second rest ih =>
      cases skips with
      | true =>
          obtain ⟨-, back, behind⟩ := standing.of_sign
          rw [isPlainFrom, back] at plain
          rw [back] at ih
          exact ih behind covers plain
      | false =>
          obtain ⟨here, behind⟩ := isPlainFrom_cons plain
          have next := standing.advance here
          rw [Source.remainder, Source.remainder, if_neg Bool.false_ne_true,
            if_neg Bool.false_ne_true, stripFrom_cons, stripFrom_cons, ← stripStep_eq rest]
          cases stays : (stripStep region char first.head?).stays with
          | true => exact .keep (ih next (covers.advance char) behind)
          | false =>
              rw [stays, Bool.false_or] at here
              exact ih next (covers.advance_plain (standing.code_of_stays stays) here).1 behind
  | @left place char first second code blank free ends rest ih =>
      cases skips with
      | true =>
          rw [isBlank_of_isSolid standing.of_sign.1] at blank
          cases blank
      | false =>
          obtain ⟨here, behind⟩ := isPlainFrom_cons plain
          have next := standing.advance here
          obtain ⟨noSkip, -⟩ := stripStep_blank (standing.cursor ▸ code) blank first.head?
          rw [noSkip, Place.advance_blank code blank] at next behind
          have stripped := ih next covers behind
          rw [standing.remainder_left code blank (ends rfl) first.head?, Source.remainder,
            if_neg Bool.false_ne_true, stripFrom_cons, noSkip]
          split
          next =>
            exact .left (covers.cursor.trans code) blank
              (free.imp covers.loose (beforeClosing_stripFrom next code behind)) nofun stripped
          next => exact stripped
  | @right place char first second code separates free ends rest ih =>
      have blank := isBlank_of_isSeparator separates
      cases skips with
      | true => exact absurd free standing.not_free_of_sign
      | false =>
          obtain ⟨noSkip, -⟩ := stripStep_blank (standing.cursor ▸ code) blank second.head?
          obtain ⟨next, plainly, same⟩ :=
            standing.remainder_right code plain blank free (ends rfl) second.head?
          have stripped := ih next covers plainly
          rw [same, Source.remainder, Source.remainder, if_neg Bool.false_ne_true,
            if_neg Bool.false_ne_true, stripFrom_cons, noSkip]
          split
          next =>
            exact .right (covers.cursor.trans code) separates
              (free.imp covers.loose (beforeClosing_stripFrom next code plainly)) nofun stripped
          next => exact stripped

/-- Both texts are spaced anew without their comments. -/
theorem stripComments (plain : isPlainFrom false (.text .code) {} first = true)
    (related : Respaced true {} first second) :
    Respaced false {} (Relaxed.stripComments sourceQuotes first)
      (Relaxed.stripComments sourceQuotes second) := by
  have standing : Standing false (.text .code) {} first :=
    ⟨rfl, fun noText => absurd rfl (noText _), nofun⟩
  exact related.remainder standing ⟨rfl, rfl, id⟩ plain

end Respaced

end TwinSchema.Source
