import TwinSchema.Proofs.Source.Reading
import TwinSchema.Proofs.Source.Relayout

/-!
# Reading back source text

The source text that is written for a valid node whose strings may stand there
is read as the canonical form of the node, on one line or laid out.
-/

namespace TwinSchema.Source

open Text

/-- What is written for a node is the text of its fragment in a style. -/
theorem exists_style (laidOut : Bool) (step : Int) {node : Node}
    (valid : node.isValid = true) (safe : node.isSafe = true) :
    ∃ style, write laidOut step node = (nodeFragment node).text style 0 := by
  have sound := sound_nodeFragment node valid safe
  rw [write, ← text_flat_fragment node 0]
  cases laidOut with
  | true => exact ⟨.laid step, reindent_text sound step⟩
  | false => exact ⟨.flat, rfl⟩

theorem read_of_bare {text cleaned expression : List Char} {node : Node}
    (clean_eq : clean text = cleaned) (notBlank : allBlank cleaned = false)
    (noExport : exportedDeclaration? cleaned = none)
    (noDeclaration : declaration? cleaned = none)
    (bare : bareExpression? cleaned = some expression)
    (told : readExpression expression = .ok node) : read text = .ok node := by
  rw [read, clean_eq, readClean, notBlank]
  simp only [noExport, noDeclaration, bare, firstReadable, readTopLevel, told]
  rfl

/-- Clean text without assignments that begins with a constructor call is read
as an expression. -/
theorem read_of_tame {text : List Char} {node : Node} (tame : Tame text)
    (calm : Calm text) (balanced : Balanced keepsStatement text)
    (visible : Stops isBlank text)
    (constructed : (constructorHead? text).isSome = true)
    (told : readExpression text = .ok node) : read text = .ok node := by
  obtain ⟨noExport, noDeclaration⟩ := declarations_eq_none tame.holdsAssignment_eq
  have bare : bareExpression? text = some text := by
    obtain ⟨head, found⟩ := Option.isSome_iff_exists.mp constructed
    rw [bareExpression?, found, Option.map_some, trimLeft_of_stops visible,
      statement_balanced balanced]
  have notBlank : allBlank text = false := by
    cases text with
    | nil => cases constructed
    | cons char rest => simp [allBlank, visible char (by simp)]
  exact read_of_bare (tame.clean_eq calm) notBlank noExport noDeclaration bare told

/-- The text of a valid and safe node in any style is read as its canonical
form. -/
theorem read_fragment (style : Style) {node : Node} (valid : node.isValid = true)
    (safe : node.isSafe = true) :
    read ((nodeFragment node).text style 0) = .ok node.canon := by
  have sound := sound_nodeFragment node valid safe
  have tame := sound.tame style 0
  obtain ⟨char, others, same, visible, -, calm⟩ :=
    leads_chainFragment (constructorOf node) (argumentFragment node)
      node.modifiers style 0
  have calmHere := calm []
  rw [List.append_nil, ← same] at calmHere
  have balanced : Balanced keepsStatement ((nodeFragment node).text style 0) :=
    (sound.balanced style 0).mono fun char keeps => by
      rw [keepsOn, Bool.and_eq_true] at keeps
      exact keeps.1
  have constructed : (constructorHead? ((nodeFragment node).text style 0)).isSome =
      true := by
    have nothing : ∀ char ∈ ([] : List Char), isBlank char = true := by simp
    have head := constructorHead?_call
      (isName_of_mem_constructors _ (mem_constructors node)) nothing
      ((argumentFragment node).text style 0 ++ ')' ::
        modifierLinks node.modifiers)
    rw [text_chainFragment]
    simpa [call] using congrArg Option.isSome head
  refine read_of_tame tame calmHere balanced ?_ constructed ?_
  · rw [same]
    exact stops_cons visible
  · exact readExpression_padded sound (readCall_argument style 0 node valid safe)
      (padded_self _)

/-- The source text that is written for a valid and safe node, on one line or
laid out and however it is indented, is read as the canonical form of the
node. -/
theorem read_write_canon (laidOut : Bool) (step : Int) {node : Node}
    (valid : node.isValid = true) (safe : node.isSafe = true) :
    read (write laidOut step node) = .ok node.canon := by
  obtain ⟨style, written⟩ := exists_style laidOut step valid safe
  rw [written]
  exact read_fragment style valid safe

/-- An empty union and an array without items come back as what accepts
anything, whatever stands in strings. -/
theorem read_write_canon_mixed :
    let node : Node := .object { description := some "a, \x7d // \x60" }
      [("x-y", .union { nullable := true } (some [])),
        ("b", .array { optional := true } none),
        ("_", .enumeration {} (some [.text "= \"z\"", .integer (-3),
          .float (.infinite true)]))]
    node.isValid = true ∧ node.isSafe = true ∧
      read (write true 2 node) =
        .ok (.object { description := some "a, \x7d // \x60" }
          [("x-y", .leaf { nullable := true } .any),
            ("b", .array { optional := true } (some .any)),
            ("_", .enumeration {} (some [.text "= \"z\"", .integer (-3),
              .float (.infinite true)]))]) :=
  ⟨by decide, by decide, read_write_canon true 2 (by decide) (by decide)⟩

end TwinSchema.Source
