import TwinSchema.Text.Spacing

/-!
# Respaced texts

A spacing may put blanks between the visible cells of a text, but nothing inside
a literal. Marked anew, a respaced text then has the visible cells of the first
text with the new gaps between them. What another spacing makes of it is settled
gap by gap, and without its gaps it is the first text without its own.
-/

namespace TwinSchema.Text

/-- Code as cells: its characters outside of literals. -/
def codeCells (code : List Char) : List Cell :=
  code.map fun char => ⟨char, false⟩

/-- Code without quotes is marked as such and leaves the scan there. -/
theorem cells_code {quotes code : List Char} (noQuote : ∀ char ∈ code, char ∉ quotes)
    (rest : List Char) :
    cells quotes .code (code ++ rest) = codeCells code ++ cells quotes .code rest := by
  induction code with
  | nil => rfl
  | cons char code ih =>
      obtain ⟨first, others⟩ := List.forall_mem_cons.mp noQuote
      have stays : Cursor.advance quotes .code char = .code := if_neg first
      rw [List.cons_append, cells, stays, ih others]
      rfl

/-- What is left of a text without its gaps. Every character that is left is marked as
code or as part of a literal. -/
def visibleCells (quotes text : List Char) : List Cell :=
  (cells quotes .code text).filter fun cell => !cell.isGap

theorem cells_gap {quotes gap : List Char}
    (noBlank : ∀ quote ∈ quotes, isBlank quote = false)
    (blank : ∀ char ∈ gap, isBlank char = true) (rest : List Char) :
    cells quotes .code (gap ++ rest) = codeCells gap ++ cells quotes .code rest := by
  refine cells_code (fun char inside member => ?_) rest
  have visible := noBlank char member
  rw [blank char inside] at visible
  cases visible

namespace Spacing

variable {State : Type} {spacing first second : Spacing State}

/-- The cells of respaced cells, where `pending` holds the current gap so far,
last blank first. -/
def layCells (spacing : Spacing State) (state : State) (pending : List Char) :
    List Cell → List Cell
  | [] => codeCells (spacing.gap state pending.reverse none)
  | cell :: rest =>
      if cell.isGap then spacing.layCells state (cell.char :: pending) rest
      else
        codeCells (spacing.gap state pending.reverse (some cell)) ++
          cell :: spacing.layCells (spacing.advance state cell) [] rest

/-- A spacing that touches only what separates: its gaps are blank where the
gaps before were, and inside a literal it puts none. -/
structure KeepsVisible (spacing : Spacing State) : Prop where
  gap_blank : ∀ state gap next, (∀ char ∈ gap, isBlank char = true) →
    ∀ char ∈ spacing.gap state gap next, isBlank char = true
  gap_inside : ∀ state cell, cell.quoted = true →
    ∀ next : Option Cell, (∀ following ∈ next, following.quoted = true) →
      spacing.gap (spacing.advance state cell) [] next = []

theorem KeepsVisible.blank (keeps : spacing.KeepsVisible) {pending : List Char}
    (blank : ∀ char ∈ pending, isBlank char = true) (state : State)
    (next : Option Cell) :
    ∀ char ∈ spacing.gap state pending.reverse next, isBlank char = true :=
  keeps.gap_blank state pending.reverse next
    fun char member => blank char (List.mem_reverse.mp member)

/-- Inside a literal the next gap is empty. -/
def Settled (spacing : Spacing State) (cursor : Cursor) (state : State)
    (pending : List Char) : Prop :=
  cursor = .code ∨ pending = [] ∧
    ∀ next : Option Cell, (∀ following ∈ next, following.quoted = true) →
      spacing.gap state [] next = []

/-- A new gap is marked as one, wherever the scan stands. -/
theorem Settled.cells_gap {quotes pending : List Char} {cursor : Cursor}
    {state : State} (settled : spacing.Settled cursor state pending)
    (keeps : spacing.KeepsVisible)
    (noBlank : ∀ quote ∈ quotes, isBlank quote = false)
    (blank : ∀ char ∈ pending, isBlank char = true) {next : Option Cell}
    (inside : cursor ≠ .code → ∀ following ∈ next, following.quoted = true)
    (rest : List Char) :
    cells quotes cursor (spacing.gap state pending.reverse next ++ rest) =
      codeCells (spacing.gap state pending.reverse next) ++
        cells quotes cursor rest := by
  by_cases code : cursor = .code
  · rw [code, Text.cells_gap noBlank (keeps.blank blank state next)]
  · obtain ⟨rfl, none⟩ := settled.resolve_left code
    rw [List.reverse_nil, none next (inside code)]
    rfl

/-- A respaced text is marked as its respaced cells. -/
theorem cells_layFrom (keeps : spacing.KeepsVisible) {quotes : List Char}
    (noBlank : ∀ quote ∈ quotes, isBlank quote = false) {cursor : Cursor}
    {state : State} {pending : List Char} (text : List Char)
    (settled : spacing.Settled cursor state pending)
    (blank : ∀ char ∈ pending, isBlank char = true) :
    cells quotes cursor
        (spacing.layFrom state pending (cells quotes cursor text)) =
      spacing.layCells state pending (cells quotes cursor text) := by
  induction text generalizing cursor state pending with
  | nil =>
      have atEnd : cursor ≠ .code →
          ∀ following ∈ (none : Option Cell), following.quoted = true := by simp
      have marked := settled.cells_gap keeps noBlank blank atEnd []
      rw [List.append_nil] at marked
      rw [cells, layFrom, layCells, marked, cells, List.append_nil]
  | cons char text ih =>
      obtain ⟨next, advanced⟩ :
          ∃ next, cursor.advance quotes char = next := ⟨_, rfl⟩
      obtain ⟨cell, same⟩ : ∃ cell : Cell,
          (⟨char, cursor != .code || next != .code⟩ : Cell) = cell := ⟨_, rfl⟩
      have marks : ∀ rest, cells quotes cursor (char :: rest) =
          cell :: cells quotes next rest := by
        intro rest
        rw [cells, advanced, same]
      have letter : cell.char = char := by rw [← same]
      have code : cell.quoted = false → cursor = .code ∧ next = .code := by
        rw [← same]
        simp
      rw [marks, layFrom, layCells]
      by_cases gap : cell.isGap = true
      · rw [if_pos gap, if_pos gap]
        simp only [Cell.isGap, Bool.and_eq_true, Bool.not_eq_true'] at gap
        obtain ⟨here, there⟩ := code gap.1
        rw [there, here]
        exact ih (.inl rfl) (List.forall_mem_cons.mpr ⟨gap.2, blank⟩)
      · have quoted : cursor ≠ .code ∨ next ≠ .code → cell.quoted = true := by
          intro outside
          rw [← Bool.not_eq_false]
          intro notQuoted
          obtain ⟨here, there⟩ := code notQuoted
          exact outside.elim (absurd here) (absurd there)
        have later : spacing.Settled next (spacing.advance state cell) [] := by
          by_cases closed : next = .code
          · exact .inl closed
          · exact .inr ⟨rfl, keeps.gap_inside state cell (quoted (.inr closed))⟩
        rw [if_neg gap, if_neg gap,
          settled.cells_gap keeps noBlank blank
            (by simpa using fun outside => quoted (.inl outside)),
          letter, marks, ih later (by simp)]

/-- Respacing loses, adds and moves no visible cell. -/
theorem filter_layCells (keeps : spacing.KeepsVisible) (state : State)
    {pending : List Char} (blank : ∀ char ∈ pending, isBlank char = true)
    (cells : List Cell) :
    (spacing.layCells state pending cells).filter (fun cell => !cell.isGap) =
      cells.filter fun cell => !cell.isGap := by
  have noCell (state : State) {pending : List Char} (next : Option Cell)
      (blank : ∀ char ∈ pending, isBlank char = true) :
      (codeCells (spacing.gap state pending.reverse next)).filter
        (fun cell => !cell.isGap) = [] := by
    refine List.filter_eq_nil_iff.mpr fun cell member => ?_
    obtain ⟨char, inside, rfl⟩ := List.mem_map.mp member
    simp [Cell.isGap, keeps.blank blank state next char inside]
  induction cells generalizing state pending with
  | nil => exact noCell state none blank
  | cons cell cells ih =>
      rw [layCells]
      by_cases gap : cell.isGap = true
      · rw [if_pos gap, List.filter_cons_of_neg (by simp [gap])]
        simp only [Cell.isGap, Bool.and_eq_true] at gap
        exact ih state (List.forall_mem_cons.mpr ⟨gap.2, blank⟩)
      · rw [if_neg gap, List.filter_append, noCell state (some cell) blank,
          List.nil_append, List.filter_cons_of_pos (by simp [gap]),
          List.filter_cons_of_pos (by simp [gap]),
          ih (spacing.advance state cell) (by simp)]

theorem visibleCells_lay (keeps : spacing.KeepsVisible) {quotes : List Char}
    (noBlank : ∀ quote ∈ quotes, isBlank quote = false) (start : State)
    (text : List Char) :
    visibleCells quotes (spacing.lay start quotes text) = visibleCells quotes text := by
  have noGap : ∀ char ∈ ([] : List Char), isBlank char = true := by simp
  rw [visibleCells, lay, cells_layFrom keeps noBlank text (.inl rfl) noGap,
    filter_layCells keeps start noGap, ← visibleCells]

theorem layFrom_gap (spacing : Spacing State) {gap : List Char}
    (blank : ∀ char ∈ gap, isBlank char = true) (state : State)
    (pending : List Char) (rest : List Cell) :
    spacing.layFrom state pending (codeCells gap ++ rest) =
      spacing.layFrom state (gap.reverse ++ pending) rest := by
  induction gap generalizing pending with
  | nil => rfl
  | cons char gap ih =>
      obtain ⟨here, others⟩ := List.forall_mem_cons.mp blank
      have separates : Cell.isGap ⟨char, false⟩ = true := by
        simp [Cell.isGap, here]
      rw [codeCells, List.map_cons, List.cons_append, layFrom, if_pos separates,
        ← codeCells, ih others, List.reverse_cons, List.append_assoc,
        List.singleton_append]

/-- A spacing absorbs an earlier one whose gaps it replaces. -/
theorem layFrom_layCells (keeps : first.KeepsVisible)
    (absorbs : ∀ state gap next,
      second.gap state (first.gap state gap next) next =
        second.gap state gap next)
    (advance : first.advance = second.advance)
    (state : State) {pending : List Char}
    (blank : ∀ char ∈ pending, isBlank char = true) (cells : List Cell) :
    second.layFrom state [] (first.layCells state pending cells) =
      second.layFrom state pending cells := by
  induction cells generalizing state pending with
  | nil =>
      have taken := second.layFrom_gap (keeps.blank blank state none) state [] []
      rw [List.append_nil, List.append_nil] at taken
      rw [layCells, taken, layFrom, layFrom, List.reverse_reverse, absorbs]
  | cons cell cells ih =>
      rw [layCells, layFrom]
      by_cases gap : cell.isGap = true
      · rw [if_pos gap, if_pos gap]
        simp only [Cell.isGap, Bool.and_eq_true] at gap
        exact ih state (List.forall_mem_cons.mpr ⟨gap.2, blank⟩)
      · rw [if_neg gap, if_neg gap,
          second.layFrom_gap (keeps.blank blank state (some cell)), layFrom,
          if_neg gap, List.append_nil, List.reverse_reverse, absorbs, advance,
          ih (second.advance state cell) (by simp)]

/-- What a spacing makes of a text it also makes of the text respaced before. -/
theorem lay_lay (keeps : first.KeepsVisible)
    (absorbs : ∀ state gap next,
      second.gap state (first.gap state gap next) next =
        second.gap state gap next)
    (advance : first.advance = second.advance)
    {quotes : List Char} (noBlank : ∀ quote ∈ quotes, isBlank quote = false)
    (start : State) (text : List Char) :
    second.lay start quotes (first.lay start quotes text) =
      second.lay start quotes text := by
  have noGap : ∀ char ∈ ([] : List Char), isBlank char = true := by simp
  rw [lay, lay, cells_layFrom keeps noBlank text (.inl rfl) noGap,
    layFrom_layCells keeps absorbs advance start noGap, ← lay]

end Spacing

end TwinSchema.Text
