import TwinSchema.Proofs.Source.OneLine
import TwinSchema.Proofs.Source.Reindenting
import TwinSchema.Proofs.Text.Lines

/-!
# Lines of laid out text

The layout of text on one line ends a line only behind a visible character, and begins
each line with the blanks of the levels that are open there. A closing brace or bracket
stands one level further out.
-/

namespace TwinSchema.Source

open Text

/-- How many levels are open behind a text: the braces and brackets outside of literals
that open one, less those that close one. -/
def openLevels (text : List Char) : Int :=
  (cells sourceQuotes .code text).countP opensLevel -
    (cells sourceQuotes .code text).countP closesLevel

/-- Whether a line begins between two parts of a text: with the blanks of the levels that
are open there, and a visible character behind them. -/
def Begins (step : Nat) (front rest : List Char) : Prop :=
  ∃ depth first more, rest = List.replicate (step * depth) ' ' ++ first :: more ∧
    isBlank first = false ∧
    (depth : Int) = openLevels (front ++ List.replicate (step * depth) ' ') -
      (if first = '}' ∨ first = ']' then 1 else 0)

theorem Begins.line {step : Nat} {front line rest : List Char}
    (begins : Begins step front (line ++ rest))
    (follows : rest = [] ∨ ∃ more, rest = '\n' :: more) : Begins step front line := by
  obtain ⟨depth, first, more, same, visible, levels⟩ := begins
  refine ⟨depth, first, ?_⟩
  rw [← List.singleton_append, ← List.append_assoc] at same
  rcases List.append_eq_append_iff.mp same with ⟨behind, whole, others⟩ | ⟨behind, whole, -⟩
  · cases behind with
    | nil => exact ⟨[], by simpa using whole.symm, visible, levels⟩
    | cons char behind =>
        -- The line would end in front of the visible character that it begins with.
        have feed : '\n' ∈ List.replicate (step * depth) ' ' ++ [first] := by
          rcases follows with empty | ⟨later, follows⟩
          · rw [empty] at others
            cases others
          · rw [follows, List.cons_append, List.cons.injEq] at others
            rw [whole, others.1]
            simp
        rcases List.mem_append.mp feed with blank | alone
        · cases List.eq_of_mem_replicate blank
        · rw [← List.mem_singleton.mp alone] at visible
          cases visible
  · refine ⟨behind, ?_, visible, levels⟩
    rw [whole, List.append_assoc, List.singleton_append]

/-- The lines that end in the second of two parts of a text end visibly, and those that
begin there do so at the levels that are open. -/
structure Lined (step : Nat) (front rest : List Char) : Prop where
  feeds : ∀ line more, rest = line ++ '\n' :: more →
    Stops isBlank (front ++ line).reverse ∧ Begins step (front ++ line ++ ['\n']) more
  ends : Stops isBlank (front ++ rest).reverse

namespace Lined

variable {step : Nat} {front text rest : List Char}

theorem within (noFeed : '\n' ∉ text) (lined : Lined step (front ++ text) rest) :
    Lined step front (text ++ rest) where
  feeds line more same := by
    rcases List.append_eq_append_iff.mp same with
      ⟨behind, whole, others⟩ | ⟨behind, whole, others⟩
    · rw [whole, ← List.append_assoc]
      exact lined.feeds behind more others
    · cases behind with
      | nil =>
          rw [List.append_nil] at whole
          have here := lined.feeds [] more others.symm
          rwa [List.append_nil, whole] at here
      | cons char behind =>
          rw [List.cons_append, List.cons.injEq] at others
          rw [whole, ← others.1] at noFeed
          exact absurd (by simp) noFeed
  ends := by
    rw [← List.append_assoc]
    exact lined.ends

theorem feed (ends : Stops isBlank front.reverse) (begins : Begins step (front ++ ['\n']) rest)
    (lined : Lined step (front ++ ['\n']) rest) : Lined step front ('\n' :: rest) where
  feeds line more same := by
    cases line with
    | nil =>
        obtain ⟨-, rfl⟩ := List.cons.inj same
        rw [List.append_nil]
        exact ⟨ends, begins⟩
    | cons char line =>
        obtain ⟨rfl, others⟩ := List.cons.inj same
        have later := lined.feeds line more others
        rwa [List.append_assoc front, List.singleton_append] at later
  ends := by
    have ends := lined.ends
    rwa [List.append_assoc, List.singleton_append] at ends

/-- A line of a text whose line feeds are well placed. -/
theorem line {line : List Char} {before after : List (List Char)} (lined : Lined step [] text)
    (begins : Begins step [] text) (split : text.splitOn '\n' = before ++ line :: after) :
    trimRight line = line ∧ Begins step (before.flatMap (· ++ ['\n'])) line := by
  obtain ⟨-, rest, same, follows⟩ := exists_of_splitOn split
  constructor
  · have ends : Stops isBlank (before.flatMap (· ++ ['\n']) ++ line).reverse := by
      rcases follows with rfl | ⟨more, rfl⟩
      · have ends := lined.ends
        rwa [same, List.append_nil] at ends
      · exact (lined.feeds (before.flatMap (· ++ ['\n']) ++ line) more
          (by rw [same, List.append_assoc])).1
    rw [List.reverse_append] at ends
    rw [trimRight, dropWhile_of_stops (stops_left ends), List.reverse_reverse]
  · refine Begins.line ?_ follows
    rcases List.eq_nil_or_concat before with rfl | ⟨others, last, rfl⟩
    · rwa [same] at begins
    · simp only [List.concat_eq_append, List.flatMap_append, List.flatMap_singleton,
        ← List.append_assoc] at same ⊢
      have feeds := lined.feeds (others.flatMap (· ++ ['\n']) ++ last) (line ++ rest)
        (by rw [same]; simp)
      exact feeds.2

end Lined

section Levels

variable {front gap : List Char}

theorem closesLevel_of_opensLevel {cell : Cell} (opens : opensLevel cell = true) :
    closesLevel cell = false := by
  simp only [opensLevel, Bool.and_eq_true, Bool.or_eq_true, beq_iff_eq] at opens
  obtain ⟨-, opening | opening⟩ := opens <;> simp [closesLevel, opening]

theorem opensLevel_of_isGap {cell : Cell} (gap : cell.isGap = true) :
    opensLevel cell = false ∧ closesLevel cell = false := by
  rw [Cell.isGap, Bool.and_eq_true] at gap
  have noBracket : cell.char ∉ ['{', '[', '}', ']'] := notMem_of_isBlank gap.2 rfl
  simp only [List.mem_cons, List.not_mem_nil, or_false, not_or] at noBracket
  simp [opensLevel, closesLevel, noBracket]

/-- One more character opens a level, closes one, or does neither. -/
theorem openLevels_concat (front : List Char) (char : Char) :
    openLevels (front ++ [char]) = openLevels front +
      (if opensLevel (cellAt (Place.after {} front) char) then 1 else 0) -
      (if closesLevel (cellAt (Place.after {} front) char) then 1 else 0) := by
  have marked : cells sourceQuotes (Cursor.code.after sourceQuotes front) [char] =
      [cellAt (Place.after {} front) char] := by
    have stands := Place.cursor_after {} front
    rw [← stands, cells_cons]
    rfl
  rw [openLevels, openLevels, cells_append, marked, List.countP_append, List.countP_append,
    List.countP_singleton, List.countP_singleton]
  split <;> split <;> omega

theorem openLevels_gap (code : (Place.after {} front).cursor = .code)
    (blank : ∀ char ∈ gap, isBlank char = true) :
    openLevels (front ++ gap) = openLevels front := by
  induction gap generalizing front with
  | nil => rw [List.append_nil]
  | cons char gap ih =>
      obtain ⟨first, others⟩ := List.forall_mem_cons.mp blank
      have stays : Place.after {} (front ++ [char]) = Place.after {} front := by
        rw [Place.after_append]
        exact Place.advance_blank code first
      have none := opensLevel_of_isGap ((isGap_cellAt char).mpr ⟨code, first⟩)
      rw [← List.singleton_append, ← List.append_assoc, ih (by rw [stays, code]) others,
        openLevels_concat, none.1, none.2]
      simp

end Levels

/-! ## What is laid out -/

/-- No blank ends a literal. -/
theorem isBlank_of_advance {front : List Char} {char : Char}
    (visible : (cellAt (Place.after {} front) char).isGap = false)
    (code : ((Place.after {} front).advance char).cursor = .code) : isBlank char = false := by
  rw [Place.cursor_advance] at code
  have stands := Place.cursor_after {} front
  cases cursor : (Place.after {} front).cursor with
  | code => exact isBlank_of_isGap visible cursor
  | literal quote =>
      rw [cursor] at code stands
      rw [Cursor.advance] at code
      split at code
      next => cases code
      next =>
        split at code
        next closing =>
          rw [closing]
          exact isBlank_of_mem_sourceQuotes quote (Cursor.mem_of_after (.inl stands.symm))
        next => cases code
  | escape quote =>
      rw [cursor] at code
      cases code

/-- What the layout knows of the text in front of it, of which a `front` is laid out: how
many levels are open, and that it ends visibly. -/
structure Emitted (front : List Char) (state : Indentation) : Prop where
  indented : Indented (Place.after {} front) state
  sound : (Place.after {} front).Sound
  levels : openLevels front = state.depth
  ends : (Place.after {} front).cursor = .code → Stops isBlank front.reverse

namespace Emitted

variable {front gap : List Char} {state : Indentation}

theorem start : Emitted [] {} where
  indented := ⟨rfl, rfl, fun literal => absurd rfl literal⟩
  sound := by
    intro loose
    cases loose
  levels := rfl
  ends _ := stops_nil

theorem after_gap (code : (Place.after {} front).cursor = .code ∨ gap = [])
    (blank : ∀ char ∈ gap, isBlank char = true) :
    Place.after {} (front ++ gap) = Place.after {} front ∧
      openLevels (front ++ gap) = openLevels front := by
  rcases code with code | rfl
  · exact ⟨by rw [Place.after_append, Place.after_blanks code blank], openLevels_gap code blank⟩
  · rw [List.append_nil]
    exact ⟨rfl, rfl⟩

theorem after_gap_char (code : (Place.after {} front).cursor = .code ∨ gap = [])
    (blank : ∀ char ∈ gap, isBlank char = true) (char : Char) :
    Place.after {} (front ++ gap ++ [char]) = (Place.after {} front).advance char := by
  rw [Place.after_append, (after_gap code blank).1]
  rfl

/-- A gap and the visible character behind it. -/
theorem advance (emitted : Emitted front state) {char : Char}
    (code : (Place.after {} front).cursor = .code ∨ gap = [])
    (blank : ∀ char ∈ gap, isBlank char = true)
    (visible : (cellAt (Place.after {} front) char).isGap = false)
    (closes : closesLevel (cellAt (Place.after {} front) char) = true → 0 < state.depth) :
    Emitted (front ++ gap ++ [char])
      (state.advance (cellAt (Place.after {} front) char)) := by
  obtain ⟨same, levels⟩ := after_gap code blank
  have behind := after_gap_char code blank char
  refine ⟨?_, ?_, ?_, ?_⟩
  · rw [behind]
    exact emitted.indented.advance visible
  · rw [behind]
    exact emitted.sound.advance char
  · rw [openLevels_concat, same, levels, emitted.levels, Indentation.advance]
    split
    next opens =>
      rw [closesLevel_of_opensLevel opens]
      simp
    next =>
      split
      next closing =>
        have deep := closes closing
        simp only
        omega
      next => simp
  · intro inCode
    rw [behind] at inCode
    rw [List.reverse_append, List.reverse_singleton, List.singleton_append]
    exact stops_cons (isBlank_of_advance visible inCode)

variable {step : Nat} {pending text rest : List Char} {char : Char}

end Emitted

end TwinSchema.Source
