import TwinSchema.Proofs.Source.Calls
import TwinSchema.Source.Reader

/-!
# Reading written arguments

Values, lists of values, descriptions and property keys are read from source
text as what they were written for.
-/

namespace TwinSchema.Source

open Text
open Json (writeScalar writeText)

section Enclosed

variable {first last : Char} (inside : List Char)

/-- Visible characters at both ends leave nothing to trim. -/
theorem trim_enclosed (visibleFirst : isBlank first = false)
    (visibleLast : isBlank last = false) :
    trim (first :: (inside ++ [last])) = first :: (inside ++ [last]) := by
  rw [trim, trimLeft_of_stops (stops_cons visibleFirst), trimRight,
    ← List.cons_append, List.reverse_append, List.reverse_singleton,
    List.singleton_append, dropWhile_of_stops (stops_cons visibleLast)]
  simp

theorem unwrap?_enclosed (opening closing : Char) :
    unwrap? opening closing (opening :: (inside ++ [closing])) = some inside := by
  simp [unwrap?]

end Enclosed

theorem dropEndingWord?_visible {word : String} {reversed : List Char}
    (visible : ∀ char ∈ reversed, isBlank char = false) :
    dropEndingWord? word reversed = none := by
  rw [dropEndingWord?]
  cases dropped : dropWord? word.toList.reverse reversed with
  | none => rfl
  | some rest =>
      cases rest with
      | nil => rfl
      | cons char rest =>
          have inside := visible char
            (by rw [dropWord?_eq_some dropped]; simp)
          simp [blanks?, inside]

theorem dropConstAssertion_visible {text : List Char}
    (visible : ∀ char ∈ text, isBlank char = false) :
    dropConstAssertion text = text := by
  have trimmed : ∀ char ∈ trimLeft text.reverse, isBlank char = false := by
    intro char member
    have inside := (List.dropWhile_suffix isBlank).subset member
    exact visible char (List.mem_reverse.mp inside)
  rw [dropConstAssertion, dropEndingWord?_visible trimmed]
  rfl

/-- An assertion does not end in a quote or a bracket. -/
theorem dropConstAssertion_closed {last : Char} (visible : isBlank last = false)
    (different : last ≠ 't') (text : List Char) :
    dropConstAssertion (text ++ [last]) = text ++ [last] := by
  have letters : "const".toList.reverse = ['t', 's', 'n', 'o', 'c'] := rfl
  have notHere : dropEndingWord? "const" (last :: text.reverse) = none := by
    rw [dropEndingWord?, letters, dropWord?, if_neg different]
    rfl
  rw [dropConstAssertion, List.reverse_append, List.reverse_singleton,
    List.singleton_append, trimLeft_of_stops (stops_cons visible), notHere]
  rfl

theorem decodeArgument_of_spells {text : List Char} {value : Json.Value}
    (kept : dropConstAssertion text = text) (spelled : Relaxed.Spells text value) :
    decodeArgument text = .ok value := by
  rw [decodeArgument, kept, Relaxed.decode_of_spells spelled]

theorem dropConstAssertion_writeText (text : String) :
    dropConstAssertion (writeText text) = writeText text :=
  dropConstAssertion_closed (by decide) (by decide) _

/-- What is written for a value without parts is read as the value. -/
theorem decodeArgument_writeScalar {value : Json.Scalar}
    (short : value.isShort = true) :
    decodeArgument (writeScalar value) = .ok (.scalar value) := by
  refine decodeArgument_of_spells ?_ (Relaxed.spells_writeScalar short)
  rcases Relaxed.exists_word short with ⟨text, rfl⟩ | ⟨word, written, -⟩
  · exact dropConstAssertion_writeText text
  · rw [← written]
    exact dropConstAssertion_visible fun char member =>
      Relaxed.isBlank_eq_false_of_isWordLetter
        (Relaxed.isWordLetter_of_mem_word word char member)

theorem isSeparator_of_isGapChar {char : Char} (gap : isGapChar char = true) :
    Json.isSeparator char = true := by
  rcases isGapChar_iff.mp gap with rfl | rfl <;> rfl

theorem spells_inside (style : Style) (level : Nat) {texts : List (List Char)}
    {values : List Json.Value} (items : Relaxed.SpellsItems texts values) :
    Relaxed.Spells ('[' :: style.inside level texts ++ [']']) (.list values) := by
  cases texts with
  | nil => exact Relaxed.spells_list [] [] [] items
  | cons text texts =>
      have gap : ∀ {blanks : List Char},
          (∀ char ∈ blanks, isGapChar char = true) →
            ∃ gap : Relaxed.Gap, gap.text = blanks := fun blank =>
        ⟨_, Relaxed.Gap.text_ofBlanks fun char member =>
          isSeparator_of_isGapChar (blank char member)⟩
      obtain ⟨first, sameFirst⟩ := gap (style.gapFirst level)
      obtain ⟨next, sameNext⟩ := gap (style.gapNext level)
      obtain ⟨last, sameLast⟩ := gap (style.gapLast level)
      have spelled := Relaxed.spells_list first next last items
      rw [sameFirst, sameNext, sameLast] at spelled
      rw [Style.inside, List.cons_append, List.append_assoc]
      exact spelled

theorem spellsItems_choices : {choices : List Choice} →
    (choices.all fun choice => choice.toScalar.isShort) = true →
    Relaxed.SpellsItems (choices.map fun choice => writeScalar choice.toScalar)
      (choices.map fun choice => .scalar choice.toScalar)
  | [], _ => Relaxed.spellsItems_nil
  | choice :: choices, short => by
      rw [List.all_cons, Bool.and_eq_true] at short
      exact Relaxed.spellsItems_cons (Relaxed.spells_writeScalar short.1)
        (spellsItems_choices short.2)

theorem choices?_scalars (choices : List Choice) :
    choices? (choices.map fun choice => .scalar choice.toScalar) =
      some choices := by
  induction choices with
  | nil => rfl
  | cons choice choices ih =>
      have same : Choice.ofScalar? choice.toScalar = some choice := by
        cases choice <;> rfl
      rw [List.map_cons, choices?, same, ih]

theorem readDescription_writeText (text : String) :
    readDescription (writeText text) = .ok (some text) := by
  have trimmed : trim (writeText text) = writeText text :=
    trim_enclosed _ (by decide) (by decide)
  have noTemplate : templateText? (writeText text) = none := rfl
  have decoded : decodeArgument (writeText text) = .ok (.text text) :=
    decodeArgument_of_spells (dropConstAssertion_writeText text)
      (Relaxed.spells_writeText text)
  simp only [readDescription, trimmed, noTemplate, decoded]
  rfl

theorem applyLinks_linksOf {node : Node} (bare : node.modifiers = {})
    (modifiers : Modifiers) :
    applyLinks node (linksOf modifiers) = .ok (node.setModifiers modifiers) := by
  have same := node.setModifiers_modifiers
  rw [bare] at same
  obtain ⟨description, nullable, optional⟩ := modifiers
  cases description <;> cases nullable <;> cases optional <;>
    simp [linksOf, applyLinks, applyLink, readDescription_writeText, Node.apply,
      Modifiers.apply, bare, same]

theorem quotedRest?_body {quote : Char} {body : List Char}
    (inside : LiteralBody quote body) (different : quote ≠ '\\') (rest : List Char) :
    quotedRest? quote (body ++ quote :: rest) = some (body ++ [quote], rest) := by
  induction inside with
  | nil =>
      rw [List.nil_append, quotedRest?.eq_def]
      simp
  | plain notEscape notQuote _ ih =>
      rw [List.cons_append, quotedRest?.eq_def]
      simp [notEscape, notQuote, ih]
  | escaped _ ih =>
      rw [List.cons_append, List.cons_append, quotedRest?.eq_def]
      simp [ih, different.symm]

theorem key?_name {name : List Char} (named : isName name = true)
    {rest : List Char} (stops : Stops isNamePart rest) :
    key? (name ++ rest) = some (.bare name, rest) := by
  have found := name?_append named stops
  cases name with
  | nil => cases named
  | cons first others =>
      have code := isCode_of_isName named first List.mem_cons_self
      have noQuote : ¬(first = '"' ∨ first = '\'') := by
        rintro (rfl | rfl) <;> revert code <;> decide
      rw [List.cons_append] at found ⊢
      rw [key?, if_neg noQuote, found]
      rfl

theorem key?_writeKey {name : String} (plain : isPlainName name = true)
    (rest : List Char) :
    ∃ key, key? (writeKey name ++ ':' :: rest) = some (key, ':' :: rest) ∧
      key.read = .ok name := by
  rw [writeKey]
  split
  next identifier =>
    have named := isName_of_isIdentifier identifier plain
    refine ⟨.bare name.toList, key?_name named (stops_cons (by decide)), ?_⟩
    rw [Key.read, String.ofList_toList]
  next =>
    refine ⟨.quoted (writeText name), ?_, ?_⟩
    · have split := quotedRest?_body (Relaxed.literalBody_escaped name)
        (by decide) (':' :: rest)
      simp [writeText, key?, split]
    · simp only [Key.read, Relaxed.convertSingleQuotes_writeText,
        Relaxed.read_writeText]
      rfl

/-- A written key begins with a visible character. -/
theorem stops_writeKey {name : String} (plain : isPlainName name = true)
    (rest : List Char) : Stops isBlank (writeKey name ++ rest) := by
  rw [writeKey]
  split
  next identifier =>
    exact stops_of_isName (isName_of_isIdentifier identifier plain) rest
  next => exact stops_cons (by decide)

/-- A written property is split into its key and what follows the colon. -/
theorem property?_writeKey {name : String} (plain : isPlainName name = true)
    {before content : List Char}
    (blank : ∀ char ∈ before, isBlank char = true)
    (visible : Stops isBlank content) :
    ∃ key, property? (before ++ (writeKey name ++ ':' :: ' ' :: content)) =
      some (key, content) ∧ key.read = .ok name := by
  obtain ⟨key, found, read⟩ := key?_writeKey plain (' ' :: content)
  refine ⟨key, ?_, read⟩
  rw [property?, trimLeft_blanks blank, trimLeft_of_stops (stops_writeKey plain _),
    found]
  simp only
  rw [trimLeft_of_stops (stops_cons (by decide)), dropChar?, if_pos rfl]
  simp only
  rw [trimLeft, List.dropWhile_cons_of_pos (by decide),
    dropWhile_of_stops visible]

end TwinSchema.Source
