import TwinSchema.Conversion
import TwinSchema.Proofs.Document.Reading
import TwinSchema.Proofs.Document.RoundTrip
import TwinSchema.Proofs.Source.Canonical
import TwinSchema.Proofs.Source.RoundTrip
import TwinSchema.Proofs.Source.Telling

/-!
# Pipelines

A text that is converted to and fro loses what its form cannot tell, and no more
than once. From then on the two forms of one node alternate, so every output
comes again two steps later.
-/

namespace TwinSchema

/-- A node that both forms can tell. -/
structure Node.Told (node : Node) : Prop where
  valid : node.isValid = true
  safe : node.isSafe = true

theorem Node.Told.canon {node : Node} (told : node.Told) : node.canon.Told :=
  ⟨node.isValid_canon told.valid, node.isSafe_canon told.safe⟩

namespace Direction

/-- What is written for a node with the standard settings at the end of a
direction. -/
def written (comments : Bool) (direction : Direction) (node : Node) : List Char :=
  (direction.renderer {} (some comments)).render node

/-- The node that is read back from what a direction has written. -/
def kept : Direction → Node → Node
  | .sourceToDocument, node => node
  | .documentToSource, node => node.canon

theorem isValid_of_read {direction : Direction} {text : List Char} {node : Node}
    (found : direction.read text = .ok node) : node.isValid = true := by
  cases direction with
  | sourceToDocument => exact Source.isValid_of_read found
  | documentToSource => exact Document.isValid_of_read found

theorem told_kept (direction : Direction) {node : Node} (told : node.Told) :
    (direction.kept node).Told := by
  cases direction with
  | sourceToDocument => exact told
  | documentToSource => exact told.canon

theorem kept_canon (direction : Direction) (node : Node) :
    direction.kept node.canon = node.canon := by
  cases direction with
  | sourceToDocument => rfl
  | documentToSource => exact node.canon_canon

/-- What one direction writes, the other one reads. -/
theorem read_written (comments : Bool) (direction : Direction) {node : Node}
    (told : node.Told) :
    direction.reverse.read (direction.written comments node) =
      .ok (direction.kept node) := by
  cases direction with
  | sourceToDocument =>
      exact Document.read_of_spells (Document.spells_write comments 2 told.valid)
        told.valid
  | documentToSource =>
      obtain ⟨style, same⟩ := Source.exists_style true 2 told.valid told.safe
      have read := Source.read_fragment style told.valid told.safe
      rwa [← same] at read

theorem convertText_of_read {comments : Bool} {direction : Direction}
    {text : List Char} {node : Node} (found : direction.read text = .ok node) :
    convertText direction (some comments) text =
      .ok (direction.written comments node) := by
  simp only [convertText, convert, found, written]

end Direction

theorem getElem?_pipeline_zero (comments : Bool) (direction : Direction)
    {steps : Nat} (proceeds : 0 < steps) (text : List Char) :
    (pipeline comments direction steps text)[0]? =
      some (convertText direction (some comments) text) := by
  obtain ⟨fewer, rfl⟩ := Nat.exists_eq_succ_of_ne_zero proceeds.ne'
  rw [pipeline]
  split
  next failed => rw [failed]; rfl
  next converted => rw [converted]; rfl

/-- Each output of a pipeline is the conversion of the one before it, to and
fro. -/
theorem getElem?_pipeline_succ (comments : Bool) {direction : Direction}
    {steps index : Nat} {text output : List Char} (inside : index + 1 < steps)
    (before : (pipeline comments direction steps text)[index]? = some (.ok output)) :
    (pipeline comments direction steps text)[index + 1]? =
      some (convertText (Nat.iterate Direction.reverse (index + 1) direction)
        (some comments) output) := by
  induction index generalizing direction steps text with
  | zero =>
      obtain ⟨fewer, rfl⟩ : ∃ fewer, steps = fewer + 1 := ⟨steps - 1, by omega⟩
      rw [getElem?_pipeline_zero comments direction (by omega)] at before
      rw [pipeline, Option.some.inj before, List.getElem?_cons_succ]
      exact getElem?_pipeline_zero comments direction.reverse (by omega) output
  | succ index ih =>
      obtain ⟨fewer, rfl⟩ : ∃ fewer, steps = fewer + 1 := ⟨steps - 1, by omega⟩
      rw [pipeline] at before ⊢
      split at before
      next => cases before
      next first converted =>
        rw [List.getElem?_cons_succ] at before ⊢
        exact ih (by omega) before

/-- The texts that a pipeline writes for a node. -/
def texts (comments : Bool) : Direction → (steps : Nat) → Node → List (List Char)
  | _, 0, _ => []
  | direction, steps + 1, node =>
      direction.written comments node ::
        texts comments direction.reverse steps (direction.kept node)

theorem length_texts (comments : Bool) (direction : Direction) (steps : Nat)
    (node : Node) : (texts comments direction steps node).length = steps := by
  induction steps generalizing direction node with
  | zero => rfl
  | succ steps ih => rw [texts, List.length_cons, ih]

/-- Each step of a pipeline reads what the step before it has written, so no
step fails. -/
theorem pipeline_eq_texts (comments : Bool) {direction : Direction} (steps : Nat)
    {text : List Char} {node : Node} (found : direction.read text = .ok node)
    (told : node.Told) :
    pipeline comments direction steps text =
      (texts comments direction steps node).map .ok := by
  induction steps generalizing direction text node with
  | zero => rfl
  | succ steps ih =>
      have next := ih (Direction.read_written comments direction told)
        (direction.told_kept told)
      simp only [pipeline, Direction.convertText_of_read found, texts,
        List.map_cons, next]

/-- The texts of a canonical node come again after two steps. -/
theorem getElem?_texts_canon (comments : Bool) (direction : Direction)
    {steps index : Nat} (inside : index + 2 < steps) (node : Node) :
    (texts comments direction steps node.canon)[index + 2]? =
      (texts comments direction steps node.canon)[index]? := by
  induction index generalizing direction steps with
  | zero =>
      obtain ⟨steps, rfl⟩ := Nat.exists_eq_add_of_lt inside
      rw [show 0 + 2 + steps + 1 = steps + 1 + 1 + 1 by omega]
      simp only [texts, Direction.kept_canon, List.getElem?_cons_zero,
        List.getElem?_cons_succ]
      cases direction <;> rfl
  | succ index ih =>
      obtain ⟨fewer, rfl⟩ : ∃ fewer, steps = fewer + 1 := ⟨steps - 1, by omega⟩
      simp only [texts, Direction.kept_canon, List.getElem?_cons_succ]
      exact ih direction.reverse (by omega)

/-- Source text does not tell a node from its canonical form. -/
theorem texts_documentToSource_canon (comments : Bool) (steps : Nat) (node : Node) :
    texts comments .documentToSource steps node =
      texts comments .documentToSource steps node.canon := by
  cases steps with
  | zero => rfl
  | succ steps =>
      have same : Direction.documentToSource.written comments node.canon =
          Direction.documentToSource.written comments node :=
        Source.write_canon true 2 node
      simp only [texts, Direction.kept, same, node.canon_canon]

/-- The texts of a node come again after two steps, from the first source text
on. -/
theorem getElem?_texts (comments : Bool) (direction : Direction) {steps index : Nat}
    (inside : index + 2 < steps) (node : Node)
    (started : direction = .sourceToDocument → 0 < index) :
    (texts comments direction steps node)[index + 2]? =
      (texts comments direction steps node)[index]? := by
  cases direction with
  | documentToSource =>
      rw [texts_documentToSource_canon]
      exact getElem?_texts_canon comments .documentToSource inside node
  | sourceToDocument =>
      obtain ⟨later, rfl⟩ : ∃ later, index = later + 1 :=
        ⟨index - 1, by have := started rfl; omega⟩
      obtain ⟨fewer, rfl⟩ : ∃ fewer, steps = fewer + 1 := ⟨steps - 1, by omega⟩
      simp only [texts, List.getElem?_cons_succ]
      exact (texts_documentToSource_canon comments fewer node) ▸
        getElem?_texts_canon comments .documentToSource (by omega) node

/-- The first document of an array without items does not come again. -/
example :
    let outputs := texts false .sourceToDocument 3 (.array {} none)
    outputs[2]? ≠ outputs[0]? := by
  decide

theorem read_of_convert {settings : Settings} {direction : Direction}
    {comments : Option Bool} {text : List Char} {outcome : Outcome} {node : Node}
    (converted : convert settings direction comments text = .ok outcome)
    (found : outcome.node? = some node) : direction.read text = .ok node := by
  rw [convert] at converted
  split at converted
  next told =>
    cases converted
    cases found
    exact told
  next => cases converted; cases found
  next => cases converted

theorem convertText_of_convert {direction : Direction} {comments : Option Bool}
    {text : List Char} {outcome : Outcome} {node : Node}
    (converted : convert {} direction comments text = .ok outcome)
    (found : outcome.node? = some node) :
    convertText direction comments text = .ok outcome.output.toList := by
  rw [convertText, converted]
  obtain ⟨_, result⟩ := outcome
  cases result with
  | ok converted => simp [Outcome.output]
  | error fault => cases found

/-- When the first conversion gives a node whose strings may stand in source
text, every step of a pipeline succeeds: the first output is that of the first
conversion, and each later one is the conversion of the one before. Each output
is the same as the one two steps before it: from the third on when the pipeline
starts from a document, and from the fourth on when it starts from source
text. -/
theorem pipeline_stabilizes (comments : Bool) {start : Direction}
    {text : List Char} {outcome : Outcome} {node : Node}
    (converted : convert {} start (some comments) text = .ok outcome)
    (found : outcome.node? = some node) (safe : node.isSafe = true) (steps : Nat) :
    let outputs := pipeline comments start steps text
    outputs.length = steps ∧
      (∀ output ∈ outputs, output.isOk = true) ∧
      (0 < steps → outputs[0]? = some (.ok outcome.output.toList)) ∧
      (∀ index output, index + 1 < steps → outputs[index]? = some (.ok output) →
        outputs[index + 1]? = some (convertText
          (Nat.iterate Direction.reverse (index + 1) start) (some comments) output)) ∧
      ∀ index, (start = .sourceToDocument → 0 < index) → index + 2 < steps →
        outputs[index + 2]? = outputs[index]? := by
  have read := read_of_convert converted found
  have same := pipeline_eq_texts comments steps read
    ⟨Direction.isValid_of_read read, safe⟩
  refine ⟨?_, ?_, ?_, ?_, ?_⟩
  · rw [same, List.length_map, length_texts]
  · intro output member
    rw [same] at member
    obtain ⟨text, -, rfl⟩ := List.mem_map.mp member
    rfl
  · intro proceeds
    rw [getElem?_pipeline_zero comments start proceeds,
      convertText_of_convert converted found]
  · intro index output inside before
    exact getElem?_pipeline_succ comments inside before
  · intro index started inside
    rw [same, List.getElem?_map, List.getElem?_map,
      getElem?_texts comments start inside node started]

/-- An array without items is told differently from the third output on. -/
theorem pipeline_stabilizes_array :
    let text := "z.array()".toList
    let outputs := pipeline false .sourceToDocument 6 text
    (∃ outcome, convert {} .sourceToDocument (some false) text = .ok outcome ∧
      outcome.node? = some (.array {} none)) ∧
      (Node.array {} none).isSafe = true ∧ outputs.length = 6 ∧
      (∀ output ∈ outputs, output.isOk = true) ∧
      (0 < 6 → outputs[0]? = some (.ok (Document.write false 2 (.array {} none)))) ∧
      (∀ index output, index + 1 < 6 → outputs[index]? = some (.ok output) →
        outputs[index + 1]? = some (convertText
          (Nat.iterate Direction.reverse (index + 1) .sourceToDocument)
          (some false) output)) ∧
      ∀ index, (Direction.sourceToDocument = .sourceToDocument → 0 < index) →
        index + 2 < 6 → outputs[index + 2]? = outputs[index]? := by
  have cleaned : Source.clean "z.array()".toList = "z.array()".toList := by
    decide +kernel
  have bare : Source.bareExpression? "z.array()".toList =
      some "z.array()".toList := by
    decide +kernel
  have chain : Source.splitChain "z.array()".toList =
      some ⟨some ⟨"array", []⟩, []⟩ := by
    decide +kernel
  have called : Source.readCall "array" [] = .ok (.array {} none) := by
    rw [Source.readCall.eq_def]
    rfl
  have told : Source.readExpression "z.array()".toList = .ok (.array {} none) :=
    Source.readExpression_of_split chain called rfl
  have read : Direction.sourceToDocument.read "z.array()".toList =
      .ok (.array {} none) :=
    Source.read_of_bare cleaned rfl (by decide +kernel) (by decide +kernel) bare
      told
  have converted : convert {} .sourceToDocument (some false) "z.array()".toList =
      .ok ⟨.sourceToDocument, .ok ⟨.array {} none,
        Direction.sourceToDocument.written false (.array {} none)⟩⟩ := by
    rw [convert, read]
    rfl
  exact ⟨⟨_, converted, rfl⟩, rfl, pipeline_stabilizes false converted rfl rfl 6⟩

end TwinSchema
