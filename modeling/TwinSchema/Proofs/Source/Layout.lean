import TwinSchema.Proofs.Text.Slack
import TwinSchema.Proofs.Text.Spacing
import TwinSchema.Source.Layout

/-!
# What a layout changes

A layout replaces the gap behind an opening bracket or a comma and the gap in
front of a closing bracket, and keeps every other gap. So it touches nothing but
blanks outside of literals. It replaces or keeps the gaps of an earlier layout as
it does those of the text itself, and the last layout alone decides, whatever the
text.
-/

namespace TwinSchema.Source

open Text

/-- A part of a literal opens no level and separates no entries. -/
theorem Indentation.advance_quoted (state : Indentation) {cell : Cell}
    (quoted : cell.quoted = true) :
    state.advance cell = { depth := state.depth } := by
  simp [advance, opensLevel, closesLevel, quoted]

/-- The gap that a layout puts is the old gap or a new one that takes no account
of the old. -/
theorem Indentation.gap_gap (earlier later : Int) (state : Indentation)
    (gap : List Char) (next : Option Cell) :
    state.gap later (state.gap earlier gap next) next =
      state.gap later gap next := by
  simp only [Indentation.gap]
  split
  · rfl
  · split <;> rfl

/-- A layout touches only what separates. -/
theorem keepsVisible_layout (step : Int) : (layout step).KeepsVisible where
  gap_blank state gap next blank := by
    intro char member
    simp only [layout, Indentation.gap] at member
    split at member
    · split at member
      · cases member
      · exact forall_mem_lineBreak rfl rfl char member
    · split at member
      · exact forall_mem_lineBreak rfl rfl char member
      · exact blank char member
  gap_inside state cell quoted next inside := by
    have noCloser : next.any closesLevel = false := by
      cases next with
      | none => rfl
      | some following => simp [closesLevel, inside following rfl]
    simp [layout, state.advance_quoted quoted, Indentation.gap, noCloser]

/-- Without the blanks outside of literals, a text that is laid out is the text
itself, character by character, and its literals are the same. -/
theorem visibleCells_reindent (step : Int) (text : List Char) :
    visibleCells sourceQuotes (reindent step text) = visibleCells sourceQuotes text :=
  Spacing.visibleCells_lay (keepsVisible_layout step) isBlank_of_mem_sourceQuotes {} text

/-- Laying out a text that was laid out before, with any number of blanks per
level, is the same as laying out the text itself. -/
theorem reindent_reindent (earlier later : Int) (text : List Char) :
    reindent later (reindent earlier text) = reindent later text := by
  have absorbs : ∀ state gap next,
      (layout later).gap state ((layout earlier).gap state gap next) next =
        (layout later).gap state gap next :=
    Indentation.gap_gap earlier later
  have noBlank : sourceQuotes.all (fun quote => !isBlank quote) = true := by
    decide
  simp only [List.all_eq_true, Bool.not_eq_true'] at noBlank
  exact Spacing.lay_lay (keepsVisible_layout earlier) absorbs rfl noBlank {} text

/-- Brackets that do not match, blanks of several kinds and an open literal. -/
example : reindent 2 (reindent (-1) "]\x7b ,\u2003a,\t[ \x7d 'b, ".toList) =
    "\n]\x7b\n  ,\n  a,\n  [\x7d 'b, ".toList := by
  decide

end TwinSchema.Source
