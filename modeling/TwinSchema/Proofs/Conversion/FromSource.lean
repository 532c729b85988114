import TwinSchema.Proofs.Conversion.Outcome
import TwinSchema.Proofs.Source.Breakdown
import TwinSchema.Proofs.Source.Reading

/-!
# Converting source text

Source text is answered with the document of a node, or with the fault that it
is not recognized, as long as its property keys can be read and its data hold no
overlong integers. A quoted key that is no readable text breaks a conversion
down.
-/

namespace TwinSchema

namespace Source

/-- Every property key that reading comes to is a readable text. -/
def ReadableKeys (text : List Char) : Prop :=
  ∀ expression, Part (clean text) expression →
    ∀ property ∈ propertiesOf expression, ∃ name, property.1.read = .ok name

/-- No integer literal in the data that reading comes to has too many digits to
be read. -/
def ShortData (text : List Char) : Prop :=
  ∀ expression, Part (clean text) expression →
    ∀ argument ∈ dataArguments expression,
      Relaxed.ShortIntegers (dropConstAssertion argument)

/-- With readable keys and short data, reading does not break down. -/
theorem read_ne_breakdown {text : List Char} (keys : ReadableKeys text)
    (short : ShortData text) (breakdown : Breakdown) :
    read text ≠ .error (.breakdown breakdown) := by
  intro stopped
  obtain ⟨expression, part, cause⟩ := exists_part_of_breakdown stopped
  cases cause with
  | key property inside unreadable =>
      obtain ⟨name, named⟩ := keys expression part property inside
      cases unreadable.symm.trans named
  | argument argument inside overlong =>
      exact decodeArgument_ne_breakdown (short expression part argument inside)
        breakdown overlong

theorem unrecognized_of_read {text : List Char} {fault : Fault}
    (refused : read text = .error (.fault fault)) :
    ∃ problem, fault = .unrecognized problem := by
  rw [read, readClean] at refused
  split at refused
  next => cases refused; exact ⟨_, rfl⟩
  next =>
    split at refused
    next => cases refused
    next => cases refused
    next =>
      split at refused
      next => cases refused
      next => cases refused; exact ⟨_, rfl⟩

end Source

/-- Converting source text with readable keys and short data has an outcome: the
document of the node that is read and no fault, or the fault that the text is not
recognized and nothing else. -/
theorem convert_source (settings : Settings) (comments : Option Bool)
    {text : List Char} (keys : Source.ReadableKeys text)
    (short : Source.ShortData text) :
    ∃ outcome, convert settings .sourceToDocument comments text = .ok outcome ∧
      ((∃ node, Source.read text = .ok node ∧ outcome.Succeeded node
          (Document.write (comments.getD settings.includeComments)
            settings.indent.val node)) ∨
        ∃ problem, Source.read text = .error (.fault (.unrecognized problem)) ∧
          outcome.Failed (.unrecognized problem)) := by
  cases found : Direction.sourceToDocument.read text with
  | ok node =>
      obtain ⟨outcome, converted, succeeded⟩ := convert_of_node found
      exact ⟨outcome, converted, .inl ⟨node, found, succeeded⟩⟩
  | error failure =>
      cases failure with
      | fault fault =>
          obtain ⟨problem, rfl⟩ := Source.unrecognized_of_read found
          obtain ⟨outcome, converted, failed⟩ := convert_of_fault found
          exact ⟨outcome, converted, .inr ⟨problem, found, failed⟩⟩
      | breakdown breakdown =>
          exact absurd found (Source.read_ne_breakdown keys short breakdown)

/-- An object with a quoted key, a literal and a description is converted. -/
theorem convert_source_object :
    let text := "z.object(\x7b\"a b\": z.literal(12).describe('c')\x7d)".toList
    Source.ReadableKeys text ∧ Source.ShortData text ∧
      ∃ outcome, convert {} .sourceToDocument none text = .ok outcome ∧
        ((∃ node, Source.read text = .ok node ∧
            outcome.Succeeded node (Document.write true 2 node)) ∨
          ∃ problem, Source.read text = .error (.fault (.unrecognized problem)) ∧
            outcome.Failed (.unrecognized problem)) := by
  intro text
  let known := [text, "z.literal(12).describe('c')".toList]
  have among (expression : List Char) (part : Source.Part (Source.clean text) expression) :
      expression ∈ known :=
    part.mem_of_closed (by decide +kernel) (by decide +kernel)
  have keys : Source.ReadableKeys text := by
    intro expression part property inside
    have readable : ∀ expression ∈ known, ∀ property ∈ Source.propertiesOf expression,
        property.1.read = .ok "a b" := by
      decide +kernel
    exact ⟨"a b", readable expression (among expression part) property inside⟩
  have short : Source.ShortData text := by
    intro expression part argument inside
    have few : ∀ expression ∈ known, ∀ argument ∈ Source.dataArguments expression,
        (Relaxed.stripComments Text.documentQuotes
          (Source.dropConstAssertion argument)).length ≤ Json.integerDigitLimit := by
      decide +kernel
    exact Relaxed.shortIntegers_of_length
      (few expression (among expression part) argument inside)
  exact ⟨keys, short, convert_source {} none keys short⟩

/-- A key with an escape that JSON does not know leaves a conversion without an
outcome, though the text holds no integer at all. -/
theorem convert_source_fails :
    let text := "z.object(\x7b\"a\\q\": z.string()\x7d)".toList
    (∀ char ∈ text, Json.isDigit char = false) ∧
      ∀ settings comments,
        ¬ ∃ outcome, convert settings .sourceToDocument comments text = .ok outcome := by
  intro text
  let entry := "\"a\\q\": z.string()".toList
  let breakdown := Breakdown.unreadableKey .unknownEscape 2 ⟨1, 3⟩
  have cleaned : Source.clean text = text := by decide +kernel
  have noExport : Source.exportedDeclaration? text = none := by decide +kernel
  have noDeclaration : Source.declaration? text = none := by decide +kernel
  have bare : Source.bareExpression? text = some text := by decide +kernel
  have chain : Source.splitChain text =
      some ⟨some ⟨"object", '\x7b' :: (entry ++ ['\x7d'])⟩, []⟩ := by
    decide +kernel
  have alone : Source.splitTopLevel entry = [entry] := by decide +kernel
  have keyed : Source.property? entry =
      some (.quoted "\"a\\q\"".toList, "z.string()".toList) := by
    decide +kernel
  have unreadable : (Source.Key.quoted "\"a\\q\"".toList).read =
      .error breakdown := by
    decide +kernel
  have stopped : Source.readExpression text = .error (.breakdown breakdown) := by
    rw [Source.readExpression_eq chain, Source.readCall_object_eq, alone,
      Source.readProperties_cons_eq keyed, unreadable]
  have read : Direction.sourceToDocument.read text = .error (.breakdown breakdown) := by
    have visible : ¬ Text.allBlank text = true := by decide
    rw [Direction.read, Source.read, cleaned, Source.readClean, if_neg visible,
      noExport, noDeclaration, bare]
    simp only [Source.firstReadable, Source.readTopLevel, stopped]
  have noDigits : (text.all fun char => !Json.isDigit char) = true := by decide
  refine ⟨fun char member => by simpa using List.all_eq_true.mp noDigits char member, ?_⟩
  rintro settings comments ⟨outcome, converted⟩
  rw [convert_of_breakdown read] at converted
  cases converted

end TwinSchema
