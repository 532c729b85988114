import TwinSchema.Proofs.Source.Layout
import TwinSchema.Proofs.Source.RespacedComments
import TwinSchema.Proofs.Source.RespacedErasing

/-!
# Reading text laid out anew

The layout of source text sets only blanks behind opening braces and brackets, behind
the commas inside them and in front of the closing ones. So source text is read as the
same node once it is laid out, whatever the number of blanks per level, where the layout
passes over its comments and its code means the same in any spacing. It takes comments
for code: a comma in one is enough for a line to break there, and what follows is no
comment any more.
-/

namespace TwinSchema.Source

open Json Text
open Relaxed (isBlank_of_isSeparator)

variable {place : Place} {first second : List Char}

namespace Respaced

variable {kept : Bool} {gap blanks : List Char}

/-- A gap that the layout leaves alone. -/
theorem keepGap (code : place.cursor = .code) (blank : ∀ char ∈ gap, isBlank char = true)
    (rest : Respaced kept place first second) :
    Respaced kept place (gap ++ first) (gap ++ second) := by
  induction gap with
  | nil => exact rest
  | cons char gap ih =>
      rw [List.forall_mem_cons] at blank
      refine .keep ?_
      rw [Place.advance_blank code blank.1]
      exact ih blank.2

theorem setGap (code : place.cursor = .code) (blank : ∀ char ∈ gap, isBlank char = true)
    (separates : ∀ char ∈ blanks, isSeparator char = true) (free : place.Free first)
    (visible : Stops isBlank first) (feeds : place.loose = true ∨ blanks.head? = some '\n')
    (rest : Respaced kept place first second) :
    Respaced kept place (gap ++ first) (blanks ++ second) := by
  have fresh : Respaced kept place first (blanks ++ second) := by
    clear feeds
    induction blanks with
    | nil => exact rest
    | cons char blanks ih =>
        rw [List.forall_mem_cons] at separates
        exact .right code separates.1 free (fun _ _ => .inr visible) (ih separates.2)
  induction gap with
  | nil => exact fresh
  | cons char gap ih =>
      rw [List.forall_mem_cons] at blank
      have inner : place.Free (gap ++ first) := free.imp_right fun closing => by
        rwa [beforeClosing, firstVisible_blanks blank.2]
      refine .left code blank.1 inner (fun _ _ => feeds.imp_right fun feed => ?_) (ih blank.2)
      rw [List.head?_append, feed]
      rfl

end Respaced

/-- A character of a text as the layout sees it at a place. -/
def cellAt (place : Place) (char : Char) : Cell :=
  ⟨char, place.cursor != .code || (place.advance char).cursor != .code⟩

theorem cells_cons (place : Place) (char : Char) (rest : List Char) :
    cells sourceQuotes place.cursor (char :: rest) =
      cellAt place char :: cells sourceQuotes (place.advance char).cursor rest := by
  rw [cells, cellAt, Place.cursor_advance]

theorem isGap_cellAt (char : Char) :
    (cellAt place char).isGap = true ↔ place.cursor = .code ∧ isBlank char = true := by
  constructor
  · intro gap
    simp only [cellAt, Cell.isGap, Bool.and_eq_true, Bool.not_eq_true', Bool.or_eq_false_iff,
      bne_eq_false_iff_eq] at gap
    exact ⟨gap.1.1, gap.2⟩
  · rintro ⟨code, blank⟩
    simp [cellAt, Cell.isGap, Place.advance_blank code blank, code, blank]

theorem isBlank_of_isGap {char : Char} (visible : (cellAt place char).isGap = false)
    (code : place.cursor = .code) : isBlank char = false := by
  rw [Bool.eq_false_iff] at visible ⊢
  exact fun blank => visible ((isGap_cellAt char).mpr ⟨code, blank⟩)

/-- A place and what the layout knows of the text in front of it. -/
structure Indented (place : Place) (state : Indentation) : Prop where
  depth : place.depth = state.depth
  loose : place.loose = (state.opened || state.separated)
  inside : place.cursor ≠ .code → place.loose = false

theorem closesLevel_cellAt {char : Char} (closes : closesLevel (cellAt place char) = true) :
    place.cursor = .code ∧ closesGap char = true := by
  rw [closesLevel, cellAt, Bool.and_eq_true, Bool.not_eq_true', Bool.or_eq_false_iff,
    bne_eq_false_iff_eq] at closes
  exact ⟨closes.1.1, closes.2⟩

theorem cellAt_quoted {char : Char}
    (quoted : place.cursor ≠ .code ∨ (place.advance char).cursor ≠ .code) :
    (cellAt place char).quoted = true := by
  rcases quoted with literal | opens
  · simp [cellAt, literal]
  · simp [cellAt, opens]

namespace Indented

variable {state : Indentation} (indented : Indented place state)
include indented

theorem advance {char : Char} (visible : (cellAt place char).isGap = false) :
    Indented (place.advance char) (state.advance (cellAt place char)) := by
  obtain ⟨cursor, depth, loose⟩ := place
  obtain rfl : depth = state.depth := indented.depth
  cases cursor with
  | literal | escape =>
      rw [state.advance_quoted (cellAt_quoted (.inl (by simp)))]
      exact ⟨rfl, rfl, fun _ => rfl⟩
  | code =>
      by_cases quote : char ∈ sourceQuotes
      · have opens : (Place.advance ⟨.code, state.depth, loose⟩ char).cursor ≠ .code := by
          rw [Place.cursor_advance, Cursor.advance, if_pos quote]
          simp
        rw [state.advance_quoted (cellAt_quoted (.inr opens))]
        simp only [sourceQuotes, List.mem_cons, List.not_mem_nil, or_false] at quote
        rcases quote with rfl | rfl | rfl <;> cases loose <;> exact ⟨rfl, rfl, fun _ => rfl⟩
      · have code : (Place.advance ⟨.code, state.depth, loose⟩ char).cursor = .code := by
          rw [Place.cursor_advance, Cursor.advance, if_neg quote]
        have shown : isBlank char = false := isBlank_of_isGap visible rfl
        have cell : cellAt ⟨.code, state.depth, loose⟩ char = ⟨char, false⟩ := by
          simp [cellAt, code]
        have opens : opensLevel ⟨char, false⟩ = (char == '{' || char == '[') := rfl
        have closes : closesLevel ⟨char, false⟩ = closesGap char := rfl
        rw [cell]
        refine ⟨?_, ?_, fun literal => absurd code literal⟩
        · simp only [Place.advance, Indentation.advance, opens, closes]
          split
          next => rfl
          next => split <;> rfl
        · simp only [Place.advance, Indentation.advance, opens, closes, shown,
            Bool.not_false, Bool.true_and, Bool.and_false, Bool.or_false]
          split
          next opening => simp [opening]
          next noOpening =>
            rw [Bool.not_eq_true] at noOpening
            split
            next closing =>
              have noComma : char ≠ ',' := by
                rintro rfl
                cases closing
              simp [noOpening, noComma]
            next => simp [noOpening]

/-- The gap that the layout sets in front of what follows. -/
theorem respaced_gap (step : Int) {pending : List Char}
    (blank : ∀ char ∈ pending, isBlank char = true)
    (code : place.cursor = .code ∨ pending = []) {next : Option Cell}
    (closes : next.any closesLevel = true →
      place.cursor = .code ∧ beforeClosing first = true)
    (visible : place.cursor = .code → Stops isBlank first)
    (rest : Respaced true place first second) :
    Respaced true place (pending ++ first) (state.gap step pending next ++ second) := by
  rw [Indentation.gap]
  split
  next closing =>
    obtain ⟨inCode, free⟩ := closes closing
    split
    next opened =>
      exact .setGap inCode blank (by simp) (.inr free) (visible inCode)
        (.inl (by rw [indented.loose, opened, Bool.true_or])) rest
    next =>
      exact .setGap inCode blank (forall_mem_lineBreak rfl rfl) (.inr free) (visible inCode)
        (.inr rfl) rest
  next =>
    split
    next loose =>
      rw [← indented.loose] at loose
      have inCode : place.cursor = .code := by
        by_contra literal
        rw [indented.inside literal] at loose
        cases loose
      exact .setGap inCode blank (forall_mem_lineBreak rfl rfl) (.inl loose) (visible inCode)
        (.inr rfl) rest
    next =>
      rcases code with inCode | rfl
      · exact rest.keepGap inCode blank
      · exact rest

end Indented

/-- What the layout makes of a text is the text spaced anew. -/
theorem respaced_layFrom (step : Int) {state : Indentation} {pending text : List Char}
    (indented : Indented place state) (blank : ∀ char ∈ pending, isBlank char = true)
    (code : place.cursor = .code ∨ pending = []) :
    Respaced true place (pending.reverse ++ text)
      ((layout step).layFrom state pending (cells sourceQuotes place.cursor text)) := by
  induction text generalizing place state pending with
  | nil =>
      have atEnd : Respaced true place (pending.reverse ++ [])
          (state.gap step pending.reverse none ++ []) :=
        indented.respaced_gap step (fun char member => blank char (List.mem_reverse.mp member))
          (code.imp_right (congrArg List.reverse)) (by simp) (fun _ => stops_nil) (.nil place)
      rwa [List.append_nil (state.gap step pending.reverse none)] at atEnd
  | cons char text ih =>
      rw [cells_cons, Spacing.layFrom]
      cases gap : (cellAt place char).isGap with
      | true =>
          obtain ⟨inCode, isBlank⟩ := (isGap_cellAt char).mp gap
          have blanks : ∀ other ∈ char :: pending, Text.isBlank other = true :=
            List.forall_mem_cons.mpr ⟨isBlank, blank⟩
          have rest := ih indented blanks (.inl inCode)
          rw [if_pos rfl, Place.advance_blank inCode isBlank]
          rwa [List.reverse_cons, List.append_assoc, List.singleton_append] at rest
      | false =>
          have rest : Respaced true place (char :: text) (char ::
              (layout step).layFrom (state.advance (cellAt place char)) []
                (cells sourceQuotes (place.advance char).cursor text)) :=
            .keep (ih (indented.advance gap) (List.forall_mem_nil _) (.inr rfl))
          rw [if_neg Bool.false_ne_true]
          refine indented.respaced_gap step
            (fun char member => blank char (List.mem_reverse.mp member))
            (code.imp_right (congrArg List.reverse)) ?_ ?_ rest
          · intro closes
            obtain ⟨inCode, closing⟩ := closesLevel_cellAt closes
            exact ⟨inCode, closing ▸ beforeClosing_visible (isBlank_of_isGap gap inCode)⟩
          · exact fun inCode => stops_cons (isBlank_of_isGap gap inCode)

theorem respaced_reindent (step : Int) (text : List Char) :
    Respaced true {} text (reindent step text) := by
  have start : Indented {} {} := ⟨rfl, rfl, fun literal => absurd rfl literal⟩
  exact respaced_layFrom step start (List.forall_mem_nil _) (.inl rfl)

/-- Whether the layout leaves the meaning of source text alone: its imports are found in
any spacing, the layout passes over its comments, and what remains means the same in any
spacing and holds each schema inside its own brackets. -/
def isTidy (text : List Char) : Bool :=
  hasOrderlyImports text && isPlainFrom false (.text .code) {} (withoutImports text) &&
    isFitting {} (clean text) && isOutlined (clean text)

/-- Laying out tidy source text, with any number of blanks per level, changes nothing in
what is read. -/
theorem read_reindent (step : Int) {text : List Char} (tidy : isTidy text = true) :
    read (reindent step text) = read text := by
  simp only [isTidy, Bool.and_eq_true] at tidy
  obtain ⟨⟨⟨orderly, plain⟩, fitting⟩, outlined⟩ := tidy
  have related := ((respaced_reindent step text).withoutImports orderly).stripComments plain
  exact (readClean_respaced related fitting outlined).symm

/-- Imports, comments, texts with signs of every kind and a layout of its own. -/
theorem read_reindent_commented :
    let text := ("import \x7b z \x7d from 'zod'\n\n// Users, with their names\n" ++
      "export const User = z.object(\x7b name: z.string() // the name\n" ++
      "  .describe('a, \x7bb]'), kind: z.enum([\"x\", 'y'] as const) /* of two */ \x7d)\n").toList
    isTidy text = true ∧ read (reindent 3 text) = read text := by
  intro text
  have tidy : isTidy text = true := by decide +kernel
  exact ⟨tidy, read_reindent 3 tidy⟩

def objectCall (body : List Char) : List Char :=
  "z.object(".toList ++ ('{' :: (body ++ ['}'])) ++ [')']

theorem read_of_objectCall {text body : List Char} {properties : List (String × Node)}
    (stands : clean text = objectCall body ∧ allBlank (objectCall body) = false ∧
      exportedDeclaration? (objectCall body) = none ∧ declaration? (objectCall body) = none ∧
      bareExpression? (objectCall body) = some (objectCall body) ∧
      splitChain (objectCall body) =
        some ⟨some ⟨"object", '{' :: (body ++ ['}'])⟩, []⟩)
    (told : readProperties [] (splitTopLevel body) = .ok properties) :
    read text = .ok (.object {} properties) := by
  obtain ⟨cleaned, notBlank, noExport, noDeclaration, bare, split⟩ := stands
  refine read_of_bare cleaned notBlank noExport noDeclaration bare
    (readExpression_of_split split ?_ rfl)
  rw [readCall_object_eq, told]

/-- A line breaks at the comma of a comment, and with the rest of the comment the entry
behind it is lost. -/
theorem read_reindent_fails :
    let text := "z.object(\x7b\n  // name, age\n  name: z.string()\n\x7d)".toList
    read text = .ok (.object {} [("name", .leaf {} .string)]) ∧
      read (reindent 2 text) = .ok (.object {} []) := by
  intro text
  constructor
  · refine read_of_objectCall (by decide +kernel :
      clean text = objectCall "\n  \n  name: z.string()\n".toList ∧ _) ?_
    have pieces : splitTopLevel "\n  \n  name: z.string()\n".toList =
        ["\n  \n  name: z.string()\n".toList] := by
      decide +kernel
    have split : splitChain "z.string()\n".toList = some ⟨some ⟨"string", []⟩, []⟩ := by
      decide +kernel
    have keyed : property? "\n  \n  name: z.string()\n".toList =
        some (.bare "name".toList, "z.string()\n".toList) := by
      decide +kernel
    rw [pieces, readProperties_cons keyed rfl (readExpression_leaf split rfl), readProperties]
    rfl
  · refine read_of_objectCall (by decide +kernel :
      clean (reindent 2 text) = objectCall "\n  \n  age\n  name: z.string()\n".toList ∧ _) ?_
    have pieces : splitTopLevel "\n  \n  age\n  name: z.string()\n".toList =
        ["\n  \n  age\n  name: z.string()\n".toList] := by
      decide +kernel
    have noKey : property? "\n  \n  age\n  name: z.string()\n".toList = none := by
      decide +kernel
    rw [pieces, readProperties_skip noKey, readProperties]

end TwinSchema.Source
