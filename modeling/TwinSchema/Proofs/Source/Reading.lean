import TwinSchema.Proofs.Node.Canonical
import TwinSchema.Proofs.Source.Arguments

/-!
# Reading written nodes

Whatever its style, the text of a sound fragment of a node is read as the
canonical form of the node. Entries are found between the commas on their level,
each with the blanks around it.
-/

namespace TwinSchema.Source

open Text

/-- A piece that holds a text and blanks around it. -/
def Padded (text piece : List Char) : Prop :=
  ∃ before after, (∀ char ∈ before, isBlank char = true) ∧
    (∀ char ∈ after, isBlank char = true) ∧ piece = before ++ text ++ after

theorem padded_self (text : List Char) : Padded text text :=
  ⟨[], [], by simp, by simp, (List.append_nil text).symm⟩

theorem isBlank_of_isGapChar {char : Char} (gap : isGapChar char = true) :
    isBlank char = true := by
  rcases isGapChar_iff.mp gap with rfl | rfl <;> rfl

/-- The pieces between the commas of spaced texts hold these texts. -/
theorem exists_pieces {next last : List Char}
    (gapNext : ∀ char ∈ next, isGapChar char = true)
    (gapLast : ∀ char ∈ last, isGapChar char = true)
    {texts : List (List Char)}
    (balanced : ∀ text ∈ texts, Balanced keepsPiece text)
    {gap text : List Char} (gapFirst : ∀ char ∈ gap, isGapChar char = true)
    (first : Balanced keepsPiece text) :
    ∃ piece pieces, piecesFrom .code 0 (gap ++ text ++
        (texts.flatMap fun other => ',' :: next ++ other) ++ last) =
          (piece, pieces) ∧
      Padded text piece ∧ List.Forall₂ Padded texts pieces := by
  have apart : (0 : Int) = 0 → ∀ char, keepsPiece char = true → char ≠ ',' :=
    fun _ char keeps => by simpa [keepsPiece] using keeps
  have blank : ∀ {gap : List Char}, (∀ char ∈ gap, isGapChar char = true) →
      ∀ char ∈ gap, isBlank char = true := fun gap char member =>
    isBlank_of_isGapChar (gap char member)
  have before : Balanced keepsPiece (gap ++ text) :=
    .append (balanced_gap gapFirst) first
  induction texts generalizing gap text with
  | nil =>
      refine ⟨gap ++ text ++ last, [], ?_, ?_, .nil⟩
      · have whole := piecesFrom_append (before.append (balanced_gap gapLast))
          (by decide) apart []
        rw [List.append_nil, foldr_extend, piecesFrom, List.append_nil] at whole
        rw [List.flatMap_nil, List.append_nil, whole]
      · exact ⟨gap, last, blank gapFirst, blank gapLast, rfl⟩
  | cons other texts ih =>
      obtain ⟨second, others⟩ := List.forall_mem_cons.mp balanced
      obtain ⟨piece, pieces, found, padded, rest⟩ :=
        ih others gapNext second (.append (balanced_gap gapNext) second)
      refine ⟨gap ++ text, piece :: pieces, ?_, ?_, .cons padded rest⟩
      · have split : gap ++ text ++ ((other :: texts).flatMap fun other =>
            ',' :: next ++ other) ++ last = (gap ++ text) ++ ',' ::
              (next ++ other ++ (texts.flatMap fun other => ',' :: next ++ other) ++
                last) := by
          simp
        rw [split, piecesFrom_append before (by decide) apart, piecesFrom_comma,
          found, foldr_extend, List.append_nil]
      · exact ⟨gap, [], blank gapFirst, by simp, (List.append_nil _).symm⟩

theorem visible_of_padded {texts pieces : List (List Char)}
    (paired : List.Forall₂ Padded texts pieces)
    (visible : ∀ text ∈ texts, allBlank text = false) :
    ∀ piece ∈ pieces, allBlank piece = false := by
  induction paired with
  | nil => simp
  | cons padded _ ih =>
      obtain ⟨first, others⟩ := List.forall_mem_cons.mp visible
      obtain ⟨before, after, -, -, rfl⟩ := padded
      refine List.forall_mem_cons.mpr ⟨?_, ih others⟩
      simp only [allBlank] at first
      simp [allBlank, List.all_append, first]

/-- The pieces between brackets hold the texts of the entries. -/
theorem splitTopLevel_inside (style : Style) (level : Nat)
    {texts : List (List Char)}
    (balanced : ∀ text ∈ texts, Balanced keepsPiece text)
    (visible : ∀ text ∈ texts, allBlank text = false) :
    List.Forall₂ Padded texts (splitTopLevel (style.inside level texts)) := by
  cases texts with
  | nil => exact .nil
  | cons text texts =>
      obtain ⟨first, others⟩ := List.forall_mem_cons.mp balanced
      obtain ⟨piece, pieces, found, padded, rest⟩ :=
        exists_pieces (style.gapNext level) (style.gapLast level) others
          (style.gapFirst level) first
      have paired : List.Forall₂ Padded (text :: texts) (piece :: pieces) :=
        .cons padded rest
      have inside : style.inside level (text :: texts) =
          style.first level ++ text ++ (texts.flatMap fun other =>
            ',' :: style.next level ++ other) ++ style.last level := rfl
      have kept : (piece :: pieces).filter (fun piece => !allBlank piece) =
          piece :: pieces := by
        apply List.filter_eq_self.mpr
        intro piece member
        rw [visible_of_padded paired visible piece member]
        rfl
      simp only [inside, splitTopLevel, found, kept]
      exact paired

theorem readExpression_eq {text argument : List Char} {constructor : String}
    {links : List Link}
    (split : splitChain text = some ⟨some ⟨constructor, argument⟩, links⟩) :
    readExpression text =
      match readCall constructor argument with
      | .ok node => orBreakdown (applyLinks node links)
      | .error setback => .error setback := by
  rw [readExpression.eq_def]
  split
  next failed =>
    rw [split] at failed
    cases failed
  next chain found =>
    rw [split, Option.some.injEq] at found
    subst found
    rfl

theorem readExpression_of_split {text argument : List Char}
    {constructor : String} {links : List Link} {node result : Node}
    (split : splitChain text = some ⟨some ⟨constructor, argument⟩, links⟩)
    (read : readCall constructor argument = .ok node)
    (applied : applyLinks node links = .ok result) :
    readExpression text = .ok result := by
  rw [readExpression_eq split, read]
  simp only [applied, orBreakdown]

theorem readCall_leaf {constructor : String} {kind : LeafKind}
    (known : constructorKind? constructor = some (.leaf kind))
    (arguments : List Char) :
    readCall constructor arguments = .ok (.leaf {} kind) := by
  rw [readCall.eq_def, known]

theorem readExpression_leaf {text arguments : List Char} {constructor : String}
    {kind : LeafKind}
    (split : splitChain text = some ⟨some ⟨constructor, arguments⟩, []⟩)
    (known : constructorKind? constructor = some (.leaf kind)) :
    readExpression text = .ok (.leaf {} kind) :=
  readExpression_of_split split (readCall_leaf known arguments) rfl

theorem readCall_array {arguments : List Char} {items : Node}
    (visible : allBlank arguments = false)
    (read : readExpression arguments = .ok items) :
    readCall "array" arguments = .ok (.array {} (some items)) := by
  have known : constructorKind? "array" = some .array := rfl
  rw [readCall.eq_def, known]
  simp only [visible, read]
  rfl

theorem readCall_object_eq (body : List Char) :
    readCall "object" ('{' :: (body ++ ['}'])) =
      match readProperties [] (splitTopLevel body) with
      | .ok properties => .ok (.object {} properties)
      | .error breakdown => .error (.breakdown breakdown) := by
  have known : constructorKind? "object" = some .object := rfl
  have visible : allBlank ('{' :: (body ++ ['}'])) = false := rfl
  have unwrapped : unwrap? '{' '}' (trim ('{' :: (body ++ ['}']))) = some body := by
    rw [trim_enclosed body (by decide) (by decide), unwrap?_enclosed]
  rw [readCall.eq_def, known]
  simp only [visible, Bool.false_eq_true, if_false]
  split
  next failed =>
    rw [unwrapped] at failed
    cases failed
  next inside found =>
    rw [unwrapped, Option.some.injEq] at found
    subst found
    rfl

theorem readCall_object {body : List Char} {properties : List (String × Node)}
    (read : readProperties [] (splitTopLevel body) = .ok properties) :
    readCall "object" ('{' :: (body ++ ['}'])) = .ok (.object {} properties) := by
  rw [readCall_object_eq, read]

theorem readCall_union_eq (body : List Char) :
    readCall "union" ('[' :: (body ++ [']'])) =
      match readMembers (splitTopLevel body) with
      | .ok members => .ok (.union {} (some members))
      | .error setback => .error setback := by
  have known : constructorKind? "union" = some .union := rfl
  have unwrapped : unwrap? '[' ']' (trim ('[' :: (body ++ [']']))) = some body := by
    rw [trim_enclosed body (by decide) (by decide), unwrap?_enclosed]
  rw [readCall.eq_def, known]
  simp only
  split
  next failed =>
    rw [unwrapped] at failed
    cases failed
  next inside found =>
    rw [unwrapped, Option.some.injEq] at found
    subst found
    rfl

theorem readCall_union {body : List Char} {members : List Node}
    (read : readMembers (splitTopLevel body) = .ok members) :
    readCall "union" ('[' :: (body ++ [']'])) =
      .ok (.union {} (some members)) := by
  rw [readCall_union_eq, read]

theorem readCall_literal {value : Json.Scalar} (short : value.isShort = true) :
    readCall "literal" (Json.writeScalar value) = .ok (.literal {} value) := by
  have known : constructorKind? "literal" = some .literal := rfl
  rw [readCall.eq_def, known]
  simp only [readLiteralCall, decodeArgument_writeScalar short]
  rfl

theorem readCall_enumeration (style : Style) (level : Nat) {choices : List Choice}
    (short : (choices.all fun choice => choice.toScalar.isShort) = true) :
    readCall "enum" ('[' :: style.inside level
      (choices.map fun choice => Json.writeScalar choice.toScalar) ++ [']']) =
        .ok (.enumeration {} (some choices)) := by
  have known : constructorKind? "enum" = some .enumeration := rfl
  have decoded := decodeArgument_of_spells
    (dropConstAssertion_closed (by decide) (by decide) _)
    (spells_inside style level (spellsItems_choices short))
  rw [readCall.eq_def, known]
  simp only [readEnumerationCall, decoded, Bind.bind, Except.bind,
    choices?_scalars]
  rfl

theorem readProperties_cons_eq {entry expression : List Char} {key : Key}
    (found : property? entry = some (key, expression))
    (before : List (String × Node)) (rest : List (List Char)) :
    readProperties before (entry :: rest) =
      match key.read with
      | .error breakdown => .error breakdown
      | .ok name =>
          match readProperty name expression with
          | .ok node => readProperties (setField name node before) rest
          | .error breakdown => .error breakdown := by
  rw [readProperties.eq_def]
  simp only
  split
  next failed =>
    rw [found] at failed
    cases failed
  next other inside same =>
    rw [found, Option.some.injEq, Prod.mk.injEq] at same
    obtain ⟨rfl, rfl⟩ := same
    rfl

theorem readProperties_cons {entry expression : List Char} {key : Key}
    {name : String} {node : Node}
    (found : property? entry = some (key, expression))
    (named : key.read = .ok name) (read : readExpression expression = .ok node)
    (before : List (String × Node)) (rest : List (List Char)) :
    readProperties before (entry :: rest) =
      readProperties (setField name node before) rest := by
  have property : readProperty name expression = .ok node := by
    rw [readProperty.eq_def, read]
  rw [readProperties_cons_eq found, named]
  simp only [property]

theorem readMembers_cons {piece : List Char} {member : Node}
    {members : List Node} {rest : List (List Char)}
    (read : readExpression piece = .ok member)
    (others : readMembers rest = .ok members) :
    readMembers (piece :: rest) = .ok (member :: members) := by
  rw [readMembers.eq_def]
  simp only [read, others]

theorem constructorKind?_leaf (kind : LeafKind) :
    constructorKind? (if kind.isPrimitive then kind.name else "any") =
      some (.leaf (if kind.isPrimitive then kind else .any)) := by
  cases kind <;> rfl

theorem Fragment.Sound.argument {constructor : String} {argument : Fragment}
    {modifiers : Modifiers}
    (sound : (chainFragment constructor argument modifiers).Sound) :
    argument.Sound := by
  rw [chainFragment] at sound
  cases sound with
  | join _ right =>
      cases right with
      | join left _ =>
          cases left with
          | called within => exact within

/-- A node is read from its text with blanks around it where its constructor
call is read. -/
theorem readExpression_padded {style : Style} {level : Nat} {node : Node}
    (sound : (nodeFragment node).Sound)
    (read : readCall (constructorOf node) ((argumentFragment node).text style level)
      = .ok (node.canon.setModifiers {}))
    {piece : List Char}
    (padded : Padded ((nodeFragment node).text style level) piece) :
    readExpression piece = .ok node.canon := by
  obtain ⟨before, after, blankBefore, blankAfter, rfl⟩ := padded
  have split := splitChain_call
    (isName_of_mem_constructors _ (mem_constructors node))
    (sound.argument.balanced style level) node.modifiers blankBefore blankAfter
  have applied := applyLinks_linksOf
    (Node.modifiers_setModifiers {} node.canon) node.modifiers
  rw [Node.setModifiers_setModifiers, ← Node.modifiers_canon,
    Node.setModifiers_modifiers, Node.modifiers_canon] at applied
  rw [text_chainFragment]
  exact readExpression_of_split split read applied

theorem entryTexts_apart {entries : List Fragment}
    (sound : ∀ entry ∈ entries, entry.Sound ∧ entry.Leads) (style : Style)
    (level : Nat) :
    (∀ text ∈ entryTexts style level entries, Balanced keepsPiece text) ∧
      ∀ text ∈ entryTexts style level entries, allBlank text = false := by
  rw [entryTexts_eq_map]
  constructor
  · intro text member
    obtain ⟨entry, inside, rfl⟩ := List.mem_map.mp member
    apply ((sound entry inside).1.balanced style level).mono
    intro char keeps
    rw [keepsOn, Bool.and_eq_true] at keeps
    exact keeps.2
  · intro text member
    obtain ⟨entry, inside, rfl⟩ := List.mem_map.mp member
    obtain ⟨char, others, same, visible, -, -⟩ :=
      (sound entry inside).2 style level
    simp [same, allBlank, visible]

mutual

/-- What is written for a constructor call is read as the canonical form of the
node, without its modifiers. -/
theorem readCall_argument (style : Style) (level : Nat) : (node : Node) →
    node.isValid = true → node.isSafe = true →
    readCall (constructorOf node) ((argumentFragment node).text style level) =
      .ok (node.canon.setModifiers {})
  | .leaf modifiers kind, _, _ => readCall_leaf (constructorKind?_leaf kind) _
  | .literal modifiers value, valid, _ => by
      rw [Node.isValid] at valid
      rw [argumentFragment, text_scalarFragment]
      exact readCall_literal valid
  | .enumeration modifiers none, valid, _ => by
      rw [Node.isValid] at valid
      cases valid
  | .enumeration modifiers (some choices), valid, _ => by
      rw [Node.isValid] at valid
      have texts : entryTexts style (level + 1)
          (choices.map fun choice => scalarFragment choice.toScalar) =
            choices.map fun choice => Json.writeScalar choice.toScalar := by
        simp [entryTexts_eq_map, text_scalarFragment]
      rw [argumentFragment, Fragment.text, Option.getD_some, texts]
      exact readCall_enumeration style level valid
  | .array modifiers none, _, _ => by
      have read := readExpression_padded (sound_nodeFragment .any rfl rfl)
        (readCall_leaf (constructorKind?_leaf .any) _)
        (padded_self ((nodeFragment .any).text style level))
      exact readCall_array rfl read
  | .array modifiers (some items), valid, safe => by
      rw [Node.isValid] at valid
      rw [Node.isSafe, Bool.and_eq_true] at safe
      have sound := sound_nodeFragment items valid safe.2
      have read := readExpression_padded sound
        (readCall_argument style level items valid safe.2)
        (padded_self _)
      exact readCall_array rfl read
  | .object modifiers properties, valid, safe => by
      rw [Node.isValid, Bool.and_eq_true, decide_eq_true_eq] at valid
      rw [Node.isSafe, Bool.and_eq_true] at safe
      obtain ⟨balanced, visible⟩ := entryTexts_apart
        (sound_properties properties valid.2 safe.2) style (level + 1)
      have read := readProperties_pieces style (level + 1) properties valid.2
        safe.2 (splitTopLevel_inside style level balanced visible) [] valid.1
      exact readCall_object read
  | .union modifiers none, valid, _ => by
      rw [Node.isValid] at valid
      cases valid
  | .union modifiers (some []), _, _ => readCall_leaf (constructorKind?_leaf .any) _
  | .union modifiers (some (member :: rest)), valid, safe => by
      rw [Node.isValid] at valid
      rw [Node.isSafe, Bool.and_eq_true] at safe
      obtain ⟨balanced, visible⟩ := entryTexts_apart
        (sound_members (member :: rest) valid safe.2) style (level + 1)
      have read := readMembers_pieces style (level + 1) (member :: rest) valid
        safe.2 (splitTopLevel_inside style level balanced visible)
      exact readCall_union read

theorem readProperties_pieces (style : Style) (level : Nat) :
    (properties : List (String × Node)) → areValidProperties properties = true →
    areSafeProperties properties = true → {pieces : List (List Char)} →
    List.Forall₂ Padded
      (entryTexts style level (propertyFragments properties)) pieces →
    (before : List (String × Node)) →
    ((before ++ properties).map Prod.fst).Nodup →
    readProperties before pieces = .ok (before ++ canonProperties properties)
  | [], _, _, pieces, paired, before, _ => by
      cases paired
      rw [readProperties.eq_def, canonProperties, List.append_nil]
  | (name, node) :: rest, valid, safe, pieces, paired, before, distinct => by
      rw [areValidProperties, Bool.and_eq_true] at valid
      rw [areSafeProperties, Bool.and_eq_true, Bool.and_eq_true] at safe
      obtain ⟨⟨safeName, safeNode⟩, safeRest⟩ := safe
      rw [propertyFragments, entryTexts, Fragment.text, text_keyFragment] at paired
      cases paired with
      | cons padded others =>
          obtain ⟨gap, after, blankGap, blankAfter, rfl⟩ := padded
          have content : Padded ((nodeFragment node).text style level)
              ((nodeFragment node).text style level ++ after) :=
            ⟨[], after, by simp, blankAfter, rfl⟩
          have read := readExpression_padded
            (sound_nodeFragment node valid.1 safeNode)
            (readCall_argument style level node valid.1 safeNode) content
          have visible : Stops isBlank
              ((nodeFragment node).text style level ++ after) :=
            stops_cons (by decide)
          obtain ⟨key, found, named⟩ :=
            property?_writeKey (isPlainName_of_isSafeName safeName) blankGap visible
          have fresh : name ∉ before.map Prod.fst := by
            rw [List.map_append, List.map_cons] at distinct
            have apart := (List.nodup_append.mp distinct).2.2
            exact fun member => apart _ member _ List.mem_cons_self rfl
          have distinctRest :
              ((before ++ [(name, node.canon)] ++ rest).map Prod.fst).Nodup := by
            simpa using distinct
          have later := readProperties_pieces style level rest valid.2 safeRest
            others (before ++ [(name, node.canon)]) distinctRest
          simp only [List.append_assoc, List.cons_append]
          rw [readProperties_cons found named read, setField_of_notMem fresh, later,
            canonProperties, List.append_assoc, List.singleton_append]

theorem readMembers_pieces (style : Style) (level : Nat) :
    (members : List Node) → areValidMembers members = true →
    areSafeMembers members = true → {pieces : List (List Char)} →
    List.Forall₂ Padded (entryTexts style level (memberFragments members)) pieces →
    readMembers pieces = .ok (canonMembers members)
  | [], _, _, pieces, paired => by
      cases paired
      rw [readMembers.eq_def, canonMembers]
  | node :: rest, valid, safe, pieces, paired => by
      rw [areValidMembers, Bool.and_eq_true] at valid
      rw [areSafeMembers, Bool.and_eq_true] at safe
      rw [memberFragments, entryTexts] at paired
      cases paired with
      | cons padded others =>
          exact readMembers_cons
            (readExpression_padded (sound_nodeFragment node valid.1 safe.1)
              (readCall_argument style level node valid.1 safe.1) padded)
            (readMembers_pieces style level rest valid.2 safe.2 others)

end

end TwinSchema.Source
