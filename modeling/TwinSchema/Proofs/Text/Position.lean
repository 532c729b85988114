import Mathlib.Algebra.GroupWithZero.Nat
import Mathlib.Data.Prod.Lex
import Mathlib.Order.Interval.Set.Defs
import TwinSchema.Proofs.Text.Lines

/-!
# Offsets and positions

A position marks the offset that its line and its column add up to: the lines in front of
its line with their line feeds, then the characters in front of its column. Each character
that is read moves the position and the offset on together, so the position of an offset
marks that very offset. A line ends before the next one starts, hence later offsets have
positions that come later line by line and column by column.
-/

namespace TwinSchema.Text.Position

/-- How many characters stand in front of a line, whose index is counted from zero: those
of the lines before it, each with its line feed. -/
def lineStart (text : List Char) (index : Nat) : Nat :=
  (((text.splitOn '\n').take index).map (·.length + 1)).sum

/-- A position on one of the lines of a text, at a character of the line or behind its
last one, marks the offset that is told by the start of the line and the column. -/
structure Marks (text : List Char) (position : Position) (offset : Nat) : Prop where
  line_pos : 1 ≤ position.line
  line_le : position.line ≤ (text.splitOn '\n').length
  column_pos : 1 ≤ position.column
  column_le : ∃ line, (text.splitOn '\n')[position.line - 1]? = some line ∧
    position.column ≤ line.length + 1
  offset_eq : offset = lineStart text (position.line - 1) + (position.column - 1)

/-- Positions are ordered by their lines, those on one line by their columns. -/
def key (position : Position) : Nat ×ₗ Nat :=
  toLex (position.line, position.column)

variable {text line : List Char} {index offset later : Nat} {char : Char}
  {position other : Position}

theorem lineStart_succ (found : (text.splitOn '\n')[index]? = some line) :
    lineStart text (index + 1) = lineStart text index + (line.length + 1) := by
  simp [lineStart, List.take_add_one, found]

theorem lineStart_mono (text : List Char) : Monotone (lineStart text) := by
  refine monotone_nat_of_le_succ fun index => ?_
  cases found : (text.splitOn '\n')[index]? with
  | none => simp [lineStart, List.take_add_one, found]
  | some line =>
      rw [lineStart_succ found]
      exact Nat.le_add_right _ _

/-- All lines together hold the text and one line feed more. -/
theorem lineStart_length_splitOn (text : List Char) :
    lineStart text (text.splitOn '\n').length = text.length + 1 := by
  rw [lineStart, List.take_length]
  induction text with
  | nil => rfl
  | cons char text ih =>
      rw [List.splitOn_cons_eq_if_modifyHead, List.length_cons]
      split
      next => rw [List.map_cons, List.sum_cons, ih, List.length_nil, Nat.add_comm]
      next =>
        cases lines : text.splitOn '\n' with
        | nil => exact absurd lines (List.splitOn_ne_nil '\n' text)
        | cons first others =>
            rw [lines, List.map_cons, List.sum_cons] at ih
            rw [List.modifyHead_cons, List.map_cons, List.sum_cons, List.length_cons]
            omega

/-- A line stands at its start, and a line feed or the end of the text follows it. -/
theorem drop_lineStart (found : (text.splitOn '\n')[index]? = some line) :
    '\n' ∉ line ∧ ∃ rest, text.drop (lineStart text index) = line ++ rest ∧
      (rest = [] ∨ ∃ more, rest = '\n' :: more) := by
  obtain ⟨inside, same⟩ := List.getElem?_eq_some_iff.mp found
  have parts : text.splitOn '\n' =
      (text.splitOn '\n').take index ++ line :: (text.splitOn '\n').drop (index + 1) := by
    rw [← same, ← List.drop_eq_getElem_cons inside, List.take_append_drop]
  obtain ⟨noFeed, rest, whole, follows⟩ := exists_of_splitOn parts
  have front :
      (((text.splitOn '\n').take index).flatMap (· ++ ['\n'])).length = lineStart text index := by
    simp [lineStart, List.length_flatMap]
  generalize ((text.splitOn '\n').take index).flatMap (· ++ ['\n']) = before at whole front
  refine ⟨noFeed, rest, ?_, follows⟩
  calc
    text.drop (lineStart text index) = (before ++ (line ++ rest)).drop before.length := by
      rw [front, ← whole]
    _ = line ++ rest := List.drop_left

theorem marks_start (text : List Char) : Marks text start 0 := by
  have lines : 0 < (text.splitOn '\n').length :=
    List.length_pos_of_ne_nil (List.splitOn_ne_nil '\n' text)
  exact
    { line_pos := Nat.le_refl 1
      line_le := lines
      column_pos := Nat.le_refl 1
      column_le := ⟨_, List.getElem?_eq_getElem lines, Nat.le_add_left _ _⟩
      offset_eq := rfl }

/-- The character behind a position is one of its line, or the line feed that ends it. -/
theorem Marks.next_char (marks : Marks text position offset)
    (next : text[offset]? = some char)
    (found : (text.splitOn '\n')[position.line - 1]? = some line) :
    if char = '\n' then position.column = line.length + 1
    else position.column ≤ line.length := by
  obtain ⟨_, again, inside⟩ := marks.column_le
  obtain rfl := Option.some.inj (found.symm.trans again)
  obtain ⟨noFeed, rest, behind, follows⟩ := drop_lineStart found
  have first := marks.column_pos
  rw [marks.offset_eq, ← List.getElem?_drop, behind] at next
  by_cases within : position.column ≤ line.length
  · rw [List.getElem?_append_left (by omega)] at next
    rwa [if_neg (ne_of_mem_of_not_mem (List.mem_of_getElem? next) noFeed)]
  · have last : position.column = line.length + 1 := by omega
    rw [last, Nat.add_sub_cancel, List.getElem?_append_right (Nat.le_refl _),
      Nat.sub_self] at next
    obtain rfl | ⟨more, rfl⟩ := follows
    · cases next
    · obtain rfl : '\n' = char := Option.some.inj next
      rwa [if_pos rfl]

/-- One more character moves the position and the offset on together. -/
theorem Marks.advance (marks : Marks text position offset)
    (next : text[offset]? = some char) :
    Marks text (position.advance char) (offset + 1) := by
  obtain ⟨line, found, inside⟩ := marks.column_le
  have told := marks.next_char next found
  have further := lineStart_succ found
  have ⟨line_pos, line_le, column_pos, _, offset_eq⟩ := marks
  rw [Nat.sub_add_cancel line_pos] at further
  rw [Position.advance]
  split at told
  next feed =>
    -- a line feed at the end of the last line would stand behind the text
    have another : position.line < (text.splitOn '\n').length := by
      have short := (List.getElem?_eq_some_iff.mp next).1
      have total := lineStart_length_splitOn text
      refine Nat.lt_of_le_of_ne line_le fun last => ?_
      rw [← last] at total
      omega
    have start : offset + 1 = lineStart text position.line := by omega
    rw [if_pos feed]
    exact
      { line_pos := Nat.le_add_left _ _
        line_le := another
        column_pos := Nat.le_refl 1
        column_le := ⟨_, List.getElem?_eq_getElem another, Nat.le_add_left _ _⟩
        offset_eq := start }
  next other =>
    have same : offset + 1 = lineStart text (position.line - 1) + position.column := by omega
    rw [if_neg other]
    exact
      { line_pos
        line_le
        column_pos := Nat.le_add_left _ _
        column_le := ⟨line, found, Nat.add_le_add_right told 1⟩
        offset_eq := same }

theorem ofOffset_succ (next : text[offset]? = some char) :
    ofOffset text (offset + 1) = (ofOffset text offset).advance char := by
  rw [ofOffset, List.take_add_one, next, Option.toList_some, List.foldl_append]
  rfl

theorem marks_ofOffset (inside : offset ≤ text.length) :
    Marks text (ofOffset text offset) offset := by
  -- by the number of characters read, since every one of them moves the position
  induction offset with
  | zero => exact marks_start text
  | succ offset ih =>
      have next := List.getElem?_eq_getElem (Nat.lt_of_succ_le inside)
      rw [ofOffset_succ next]
      exact (ih (Nat.le_of_succ_le inside)).advance next

/-- No offset on a line reaches the start of the next one. -/
theorem Marks.lt_lineStart (marks : Marks text position offset) :
    offset < lineStart text position.line := by
  obtain ⟨line, found, inside⟩ := marks.column_le
  have next := lineStart_succ found
  have first := marks.column_pos
  rw [Nat.sub_add_cancel marks.line_pos] at next
  rw [next, marks.offset_eq]
  omega

theorem Marks.le_length (marks : Marks text position offset) : offset ≤ text.length := by
  have before := marks.lt_lineStart.trans_le (lineStart_mono text marks.line_le)
  rw [lineStart_length_splitOn] at before
  exact Nat.le_of_lt_succ before

theorem Marks.lt_of_key_lt (marks : Marks text position offset)
    (others : Marks text other later) (before : position.key < other.key) :
    offset < later := by
  have order : position.line < other.line ∨
      position.line = other.line ∧ position.column < other.column :=
    Prod.Lex.toLex_lt_toLex.mp before
  rcases order with lines | ⟨same, columns⟩
  · calc
      offset < lineStart text position.line := marks.lt_lineStart
      _ ≤ lineStart text (other.line - 1) := lineStart_mono text (Nat.le_sub_one_of_lt lines)
      _ ≤ later := by
          rw [others.offset_eq]
          exact Nat.le_add_right _ _
  · have first := marks.column_pos
    rw [marks.offset_eq, others.offset_eq, same]
    omega

theorem key_injective : Function.Injective key := by
  rintro ⟨line, column⟩ ⟨_, _⟩ same
  cases same
  rfl

/-- An offset is marked by one position only. -/
theorem Marks.unique (marks : Marks text position offset)
    (others : Marks text other offset) : position = other := by
  rcases lt_trichotomy position.key other.key with before | same | after
  · exact absurd (marks.lt_of_key_lt others before) (Nat.lt_irrefl _)
  · exact key_injective same
  · exact absurd (others.lt_of_key_lt marks after) (Nat.lt_irrefl _)

/-- The positions in a text and its offsets belong together one to one. -/
theorem marks_iff :
    Marks text position offset ↔ offset ≤ text.length ∧ position = ofOffset text offset := by
  constructor
  · intro marks
    exact ⟨marks.le_length, marks.unique (marks_ofOffset marks.le_length)⟩
  · rintro ⟨inside, rfl⟩
    exact marks_ofOffset inside

theorem Marks.key_lt_key (marks : Marks text position offset)
    (others : Marks text other later) (before : offset < later) : position.key < other.key := by
  rcases lt_trichotomy position.key other.key with first | same | last
  · exact first
  · have equal := marks.offset_eq
    rw [key_injective same, ← others.offset_eq] at equal
    exact absurd equal before.ne
  · exact absurd (others.lt_of_key_lt marks last) before.asymm

theorem coe_clampOffset (text : List Char) (offset : Int) :
    (clampOffset text offset : Int) = max 0 (min offset text.length) := by
  rw [clampOffset]
  omega

theorem ofOffset_clampOffset (text : List Char) (offset : Int) :
    ofOffset text (clampOffset text offset) = ofOffset text offset.toNat := by
  rw [ofOffset, ofOffset, clampOffset, ← List.take_eq_take_min]

/-- Every offset, which first moves to the nearer end of the text where it lies outside, is
marked by its position and by no other one. From one end of the text to the other, later
offsets have later positions. -/
theorem marks_clampOffset (text : List Char) :
    (∀ offset : Int,
      (clampOffset text offset : Int) = max 0 (min offset text.length) ∧
        ofOffset text (clampOffset text offset) = ofOffset text offset.toNat ∧
        ∀ position, Marks text position (clampOffset text offset) ↔
          position = ofOffset text (clampOffset text offset)) ∧
      StrictMonoOn (fun offset => (ofOffset text offset).key) (Set.Iic text.length) := by
  constructor
  · intro offset
    have inside : clampOffset text offset ≤ text.length := Nat.min_le_right _ _
    exact ⟨coe_clampOffset text offset, ofOffset_clampOffset text offset,
      fun _ => marks_iff.trans (and_iff_right inside)⟩
  · intro offset inside later laterInside before
    exact (marks_ofOffset inside).key_lt_key (marks_ofOffset laterInside) before

/-- A line feed stands at the end of its own line, and the end of a text that ends with one
is on a line without characters. -/
example :
    let text := ['a', 'b', '\n', '\n']
    [-1, 2, 3, 4, 9].map (fun offset => ofOffset text (clampOffset text offset)) =
      [⟨1, 1⟩, ⟨1, 3⟩, ⟨2, 1⟩, ⟨3, 1⟩, ⟨3, 1⟩] := by
  decide

end TwinSchema.Text.Position
