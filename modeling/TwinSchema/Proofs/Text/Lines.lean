import Mathlib.Data.List.Forall2
import TwinSchema.Text.Position

/-!
# Lines between line feeds

A text has one line more than line feeds. A text that keeps the line feeds of
another one and some of its characters keeps them on their lines, and dropping
characters line by line drops them from the text.
-/

namespace TwinSchema.Text

theorem length_splitOn (text : List Char) :
    (text.splitOn '\n').length = text.count '\n' + 1 := by
  induction text with
  | nil => rfl
  | cons char text ih =>
      rw [List.splitOn_cons_eq_if_modifyHead, List.count_cons]
      split
      next => rw [List.length_cons, ih]
      next => rw [List.length_modifyHead, ih, Nat.add_zero]

theorem map_filter_splitOn {keeps : Char → Bool} (feed : keeps '\n' = true) (text : List Char) :
    (text.splitOn '\n').map (List.filter keeps) = (text.filter keeps).splitOn '\n' := by
  induction text with
  | nil => rfl
  | cons char text ih =>
      rw [List.splitOn_cons_eq_if_modifyHead]
      split
      next same =>
        rw [beq_iff_eq] at same
        rw [same, List.map_cons, ih, List.filter_cons_of_pos feed,
          List.splitOn_cons_eq_if_modifyHead, if_pos (by simp)]
        rfl
      next other =>
        cases kept : keeps char with
        | true =>
            rw [List.filter_cons_of_pos kept, List.splitOn_cons_eq_if_modifyHead, if_neg other,
              ← ih]
            cases text.splitOn '\n' <;> simp [kept]
        | false =>
            rw [List.filter_cons_of_neg (by simp [kept]), ← ih]
            cases text.splitOn '\n' <;> simp [kept]

/-- A line holds no line feed. It stands behind the lines before it and their line feeds,
and a line feed or the end of the text follows it. -/
theorem exists_of_splitOn {text line : List Char} {before after : List (List Char)}
    (split : text.splitOn '\n' = before ++ line :: after) :
    '\n' ∉ line ∧ ∃ rest, text = before.flatMap (· ++ ['\n']) ++ (line ++ rest) ∧
      (rest = [] ∨ ∃ more, rest = '\n' :: more) := by
  induction text generalizing before line with
  | nil =>
      obtain ⟨rfl, rfl⟩ : before = [] ∧ line = [] := by
        cases before <;> simp_all
      exact ⟨by simp, [], rfl, .inl rfl⟩
  | cons char text ih =>
      rw [List.splitOn_cons_eq_if_modifyHead] at split
      split at split
      next feed =>
        rw [beq_iff_eq] at feed
        cases before with
        | nil =>
            obtain ⟨rfl, -⟩ := List.cons.inj split
            exact ⟨by simp, _, rfl, .inr ⟨text, by rw [feed]⟩⟩
        | cons first before =>
            obtain ⟨rfl, later⟩ := List.cons.inj split
            obtain ⟨noFeed, rest, same, follows⟩ := ih later
            exact ⟨noFeed, rest, by rw [same, feed]; rfl, follows⟩
      next other =>
        rw [beq_iff_eq] at other
        cases lines : text.splitOn '\n' with
        | nil => exact absurd lines (List.splitOn_ne_nil '\n' text)
        | cons first others =>
            rw [lines, List.modifyHead_cons] at split
            cases before with
            | nil =>
                obtain ⟨rfl, rfl⟩ := List.cons.inj split
                have split : text.splitOn '\n' = [] ++ first :: others := lines
                obtain ⟨noFeed, rest, same, follows⟩ := ih split
                exact ⟨by simp [noFeed, Ne.symm other], rest, by rw [same]; rfl, follows⟩
            | cons front before =>
                obtain ⟨rfl, rfl⟩ := List.cons.inj split
                have split : text.splitOn '\n' = (first :: before) ++ line :: after := lines
                obtain ⟨noFeed, rest, same, follows⟩ := ih split
                exact ⟨noFeed, rest, by rw [same]; rfl, follows⟩

/-- A text without some characters of another one, none of which is a line feed. -/
inductive Thinned : List Char → List Char → Prop where
  | nil : Thinned [] []
  | keep {char : Char} {first second : List Char} (rest : Thinned first second) :
      Thinned (char :: first) (char :: second)
  | drop {char : Char} {first second : List Char} (noFeed : char ≠ '\n')
      (rest : Thinned first second) : Thinned first (char :: second)

namespace Thinned

variable {first second : List Char}

theorem count_eq (thinned : Thinned first second) :
    first.count '\n' = second.count '\n' := by
  induction thinned with
  | nil => rfl
  | keep _ ih => rw [List.count_cons, List.count_cons, ih]
  | drop noFeed _ ih => rw [ih, List.count_cons_of_ne noFeed]

/-- Every character that is left stays on its line. -/
theorem splitOn (thinned : Thinned first second) :
    List.Forall₂ List.Sublist (first.splitOn '\n') (second.splitOn '\n') := by
  induction thinned with
  | nil => exact .cons .slnil .nil
  | @keep char first second _ lines =>
      rw [List.splitOn_cons_eq_if_modifyHead, List.splitOn_cons_eq_if_modifyHead]
      generalize first.splitOn '\n' = shorter at lines ⊢
      generalize second.splitOn '\n' = longer at lines ⊢
      split
      next => exact .cons .slnil lines
      next =>
        cases lines with
        | nil => exact .nil
        | cons line others => exact .cons (line.cons_cons char) others
  | @drop char first second noFeed _ lines =>
      rw [List.splitOn_cons_eq_if_modifyHead, if_neg (by simpa using noFeed)]
      generalize first.splitOn '\n' = shorter at lines ⊢
      generalize second.splitOn '\n' = longer at lines ⊢
      cases lines with
      | nil => exact .nil
      | cons line others => exact .cons (line.cons char) others

end Thinned

/-- A place is on the line after as many line feeds as stand before it. -/
theorem Position.line_ofOffset (text : List Char) (offset : Nat) :
    (ofOffset text offset).line = (text.take offset).count '\n' + 1 := by
  have run (position : Position) (before : List Char) :
      (before.foldl advance position).line = position.line + before.count '\n' := by
    induction before generalizing position with
    | nil => rfl
    | cons char before ih =>
        rw [List.foldl_cons, ih, List.count_cons, advance]
        split
        next feed => simp [feed, Nat.add_comm, Nat.add_left_comm]
        next noFeed => simp [noFeed]
  rw [ofOffset, run, Nat.add_comm]
  rfl

theorem Position.line_ofOffset_le (text : List Char) (offset : Nat) :
    (ofOffset text offset).line ≤ (text.splitOn '\n').length := by
  have few := (List.take_sublist offset text).count_le '\n'
  rw [line_ofOffset, length_splitOn]
  omega

end TwinSchema.Text
