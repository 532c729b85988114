import TwinSchema.Proofs.Relaxed.Mending
import TwinSchema.Proofs.Relaxed.Repair
import TwinSchema.Proofs.Text.Slack

/-!
# Padded documents

A document may be padded with blanks behind its opening braces and brackets,
behind its commas and in front of its closing braces and brackets. Every repair
makes of a padded document the padded repaired document. A backquote is no part
of JSON, so what stands behind one may differ altogether.
-/

namespace TwinSchema.Relaxed

open Json Text

/-- A document and the same document with more blanks where they count for
nothing; `loose` tells whether the place in front of both is such a one. -/
inductive Padded : (loose : Bool) → (tight padded : List Char) → Prop where
  | same (loose : Bool) (text : List Char) : Padded loose text text
  | stop (loose : Bool) (first second : List Char) :
      Padded loose ('\x60' :: first) ('\x60' :: second)
  | keep {loose : Bool} {char : Char} {tight padded : List Char} (code : char ≠ '"')
      (rest : Padded (loosens loose char) tight padded) :
      Padded loose (char :: tight) (char :: padded)
  | pad {loose : Bool} {char : Char} {tight padded : List Char}
      (separates : isSeparator char = true)
      (place : loose = true ∨ beforeClosing tight = true)
      (rest : Padded loose tight padded) : Padded loose tight (char :: padded)
  | literal {loose : Bool} {body tight padded : List Char}
      (inside : LiteralBody '"' body) (rest : Padded false tight padded) :
      Padded loose ('"' :: (body ++ '"' :: tight)) ('"' :: (body ++ '"' :: padded))

namespace Padded

variable {loose : Bool} {char : Char} {tight padded : List Char}

/-- Padding puts nothing visible in front. -/
theorem firstVisible_eq (related : Padded loose tight padded) :
    firstVisible tight = firstVisible padded := by
  induction related with
  | same | stop | literal => rfl
  | keep _ _ ih =>
      simp only [firstVisible, List.find?_cons] at ih ⊢
      rw [ih]
  | pad separates _ _ ih =>
      rw [ih, firstVisible, firstVisible, List.find?_cons_of_neg]
      simp [isBlank_of_isSeparator separates]

theorem colonFollows_eq (related : Padded loose tight padded) :
    colonFollows tight = colonFollows padded := by
  rw [colonFollows, colonFollows, related.firstVisible_eq]

/-- More blanks may stand in a looser place. -/
theorem mono (related : Padded loose tight padded) {other : Bool}
    (implies : loose = true → other = true) : Padded other tight padded := by
  induction related generalizing other with
  | same _ text => exact .same other text
  | stop _ first second => exact .stop other first second
  | keep code _ ih => exact .keep code (ih (loosens_mono implies))
  | pad separates place _ ih => exact .pad separates (place.imp_left implies) (ih implies)
  | literal inside rest => exact .literal inside rest

theorem prepend {code : List Char} (noQuote : '"' ∉ code)
    (related : Padded false tight padded) :
    Padded loose (code ++ tight) (code ++ padded) := by
  induction code generalizing loose with
  | nil => exact related.mono nofun
  | cons char code ih =>
      rw [List.mem_cons, not_or] at noQuote
      exact .keep (Ne.symm noQuote.1) (ih noQuote.2)

/-- A closing brace may stand at the end. -/
theorem append_brace (related : Padded loose tight padded) :
    Padded loose (tight ++ ['}']) (padded ++ ['}']) := by
  induction related with
  | same loose text => exact .same loose _
  | stop loose first second => exact .stop loose _ _
  | keep code _ ih => exact .keep code ih
  | @pad loose char tight padded separates place _ ih =>
      have closing : beforeClosing tight = true → beforeClosing (tight ++ ['}']) = true := by
        intro before
        cases first : firstVisible tight with
        | none =>
            rw [beforeClosing, firstVisible, List.find?_append,
              show tight.find? _ = none from first]
            rfl
        | some sign =>
            rw [beforeClosing, first] at before
            rw [beforeClosing, firstVisible, List.find?_append,
              show tight.find? _ = some sign from first]
            exact before
      exact .pad separates (place.imp_right closing) ih
  | literal inside _ ih =>
      simpa using Padded.literal inside ih

theorem run {test : Char → Bool} (solid : ∀ char, test char = true → isSolid char = true)
    (related : Padded loose tight padded) (tightly : loose = false) :
    tight.takeWhile test = padded.takeWhile test ∧
      Padded false (tight.dropWhile test) (padded.dropWhile test) := by
  have outside : ∀ char, isSolid char = false → test char = false := by
    intro char notSolid
    rw [Bool.eq_false_iff]
    intro inside
    rw [solid char inside] at notSolid
    cases notSolid
  induction related with
  | same _ text => exact ⟨rfl, .same false _⟩
  | stop _ first second =>
      simp only [List.takeWhile_cons, List.dropWhile_cons, outside '\x60' rfl]
      exact ⟨rfl, .stop false _ _⟩
  | @keep loose char tight padded code rest ih =>
      cases inside : test char with
      | false =>
          rw [tightly] at rest
          simp only [List.takeWhile_cons, List.dropWhile_cons, inside]
          exact ⟨rfl, .keep code rest⟩
      | true =>
          obtain ⟨taken, dropped⟩ := ih (loosens_solid (solid char inside) loose)
          rw [List.takeWhile_cons_of_pos inside, List.takeWhile_cons_of_pos inside,
            List.dropWhile_cons_of_pos inside, List.dropWhile_cons_of_pos inside, taken]
          exact ⟨rfl, dropped⟩
  | @pad loose char tight padded separates place rest =>
      have blank := isBlank_of_isSeparator separates
      have closing := place.resolve_left (by simp [tightly])
      have apart : test char = false := outside char (by simp [isSolid, blank])
      have stops : Stops test tight := by
        cases tight with
        | nil => exact stops_nil
        | cons first tight =>
            apply stops_cons
            rw [Bool.eq_false_iff]
            intro inside
            rw [beforeClosing_solid (solid first inside)] at closing
            cases closing
      rw [dropWhile_of_stops stops, dropWhile_of_stops (stops_cons apart)]
      constructor
      · rw [List.takeWhile_cons, apart]
        simpa using takeWhile_of_stops stops
      · exact .pad separates (.inr closing) (tightly ▸ rest)
  | literal inside rest =>
      simp only [List.takeWhile_cons, List.dropWhile_cons, outside '"' rfl]
      exact ⟨rfl, .literal inside rest⟩

end Padded

end TwinSchema.Relaxed
