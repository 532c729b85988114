import Mathlib.Data.List.Forall2
import TwinSchema.Proofs.Fields
import TwinSchema.Proofs.Source.Closed
import TwinSchema.Proofs.Source.Reading

/-!
# Entries between brackets

Entries with closed brackets and literals are told apart by the commas between
them, whatever stands in them. Each property of an object is read on its own,
and so is each member of a union until one of them cannot be read.
-/

namespace TwinSchema.Source

open Text

/-- A piece that holds a text behind blanks. -/
def Led (text piece : List Char) : Prop :=
  ∃ before, (∀ char ∈ before, isBlank char = true) ∧ piece = before ++ text

theorem led_self (text : List Char) : Led text text := ⟨[], by simp, rfl⟩

theorem led_space (text : List Char) : Led text (' ' :: text) := ⟨[' '], by simp [isBlank], rfl⟩

theorem ne_comma_of_keepsPiece {level : Int} (_ : level = 0) (char : Char)
    (keeps : keepsPiece char = true) : char ≠ ',' := by
  simpa [keepsPiece] using keeps

/-- Balanced entries are cut at the commas between them. -/
theorem piecesFrom_entries {text : List Char} {texts : List (List Char)}
    (first : Balanced keepsPiece text) (others : ∀ other ∈ texts, Balanced keepsPiece other) :
    piecesFrom .code 0 (text ++ texts.flatMap fun other => ',' :: ' ' :: other) =
      (text, texts.map fun other => ' ' :: other) := by
  induction texts generalizing text with
  | nil =>
      rw [List.flatMap_nil, piecesFrom_append first (by decide) ne_comma_of_keepsPiece,
        piecesFrom, foldr_extend, List.append_nil, List.map_nil]
  | cons next texts ih =>
      obtain ⟨second, others⟩ := List.forall_mem_cons.mp others
      have spaced : Balanced keepsPiece (' ' :: next) :=
        .cons rfl rfl (by decide) rfl second
      have later := ih spaced others
      rw [List.cons_append] at later
      rw [List.flatMap_cons, List.cons_append, List.cons_append,
        piecesFrom_append first (by decide) ne_comma_of_keepsPiece, piecesFrom_comma, later,
        foldr_extend, List.append_nil, List.map_cons]

/-- Entries that are closed and not blank are the pieces of their list. -/
theorem splitTopLevel_entries {texts : List (List Char)}
    (balanced : ∀ text ∈ texts, Balanced keepsPiece text)
    (visible : ∀ text ∈ texts, allBlank text = false) :
    List.Forall₂ Led texts (splitTopLevel (entries texts)) := by
  cases texts with
  | nil => exact .nil
  | cons text texts =>
      obtain ⟨first, others⟩ := List.forall_mem_cons.mp balanced
      obtain ⟨firstVisible, othersVisible⟩ := List.forall_mem_cons.mp visible
      have kept : (text :: texts.map fun other => ' ' :: other).filter
          (fun piece => !allBlank piece) = text :: texts.map fun other => ' ' :: other := by
        apply List.filter_eq_self.mpr
        rw [List.forall_mem_cons]
        refine ⟨by rw [firstVisible]; rfl, ?_⟩
        intro piece member
        obtain ⟨other, inside, rfl⟩ := List.mem_map.mp member
        have apart := othersVisible other inside
        rw [allBlank] at apart
        simp [allBlank, apart]
      rw [splitTopLevel, entries, Relaxed.intercalate_cons]
      simp only [List.cons_append, List.nil_append]
      rw [piecesFrom_entries first others]
      simp only [kept]
      refine .cons (led_self text) ?_
      rw [List.forall₂_map_right_iff]
      exact List.forall₂_same.mpr fun other _ => led_space other

/-- Blanks in front of an expression change nothing in its calls. -/
theorem splitChain_blanks {before : List Char} (blank : ∀ char ∈ before, isBlank char = true)
    (text : List Char) : splitChain (before ++ text) = splitChain text := by
  simp only [splitChain, constructorHead?, reference?, trimLeft_blanks blank]

theorem readExpression_unsupported {text : List Char}
    (without : (splitChain text).bind Chain.call = none) :
    readExpression text = .error .unsupported := by
  rw [readExpression.eq_def]
  split
  next => rfl
  next chain split =>
    rw [split] at without
    split
    next => rfl
    next call called =>
      have called : chain.call = none := without
      simp_all

/-- An expression counts only by its calls. -/
theorem readExpression_congr {first second : List Char}
    (same : splitChain first = splitChain second) :
    readExpression first = readExpression second := by
  cases split : splitChain second with
  | none =>
      rw [readExpression_unsupported (by rw [same, split]; rfl),
        readExpression_unsupported (by rw [split]; rfl)]
  | some chain =>
      obtain ⟨call, links⟩ := chain
      cases call with
      | none =>
          rw [readExpression_unsupported (by rw [same, split]; rfl),
            readExpression_unsupported (by rw [split]; rfl)]
      | some call => rw [readExpression_eq (same.trans split), readExpression_eq split]

/-- Members are read one after the other, up to the first that cannot be read. -/
theorem readMembers_eq {texts pieces : List (List Char)}
    (led : List.Forall₂ Led texts pieces) :
    readMembers pieces = texts.mapM readExpression := by
  induction led with
  | nil => rw [readMembers.eq_def]; rfl
  | @cons text piece texts pieces led _ ih =>
      obtain ⟨before, blank, rfl⟩ := led
      rw [readMembers.eq_def]
      simp only
      rw [readExpression_congr (splitChain_blanks blank text), ih, List.mapM_cons]
      cases readExpression text with
      | error setback => rfl
      | ok member => cases texts.mapM readExpression <;> rfl

theorem splitChain_callList {constructor : String}
    (named : isName constructor.toList = true) {texts : List (List Char)}
    (balanced : ∀ text ∈ texts, Balanced keepsPiece text) :
    splitChain (callList constructor texts) =
      some ⟨some ⟨constructor, '[' :: (entries texts ++ [']'])⟩, []⟩ := by
  have inside : Balanced (fun _ => true) (entries texts) := by
    rw [← inside_flat 0]
    exact balanced_inside .flat 0 fun text member =>
      (balanced text member).mono fun _ _ => rfl
  have whole : Balanced keepsPiece ('[' :: (entries texts ++ [']'])) :=
    .enclosed rfl rfl inside
  have blank : ∀ char ∈ ([] : List Char), isBlank char = true := by simp
  have split := splitChain_call named whole {} blank blank
  have unmodified : modifierLinks {} = [] := rfl
  rw [List.nil_append, List.append_nil, unmodified, List.append_nil] at split
  exact split

/-- A union of closed members is read member by member, each on its own. The
first member that is no chain of calls makes the property fall back as a
whole. -/
theorem readProperty_union (name : String) {members : List (List Char)}
    (closed : ∀ member ∈ members, isClosed keepsPiece member = true)
    (visible : ∀ member ∈ members, allBlank member = false) :
    readProperty name (callList "union" members) =
      match members.mapM readExpression with
      | .ok nodes => .ok (.union {} (some nodes))
      | .error .unsupported => .ok (fallbackNode name (callList "union" members))
      | .error (.breakdown breakdown) => .error breakdown := by
  have balanced : ∀ member ∈ members, Balanced keepsPiece member :=
    fun member inside => balanced_of_isClosed (closed member inside)
  have named : isName "union".toList = true := by decide
  have split := splitChain_callList named balanced
  have pieces := readMembers_eq (splitTopLevel_entries balanced visible)
  have links : trailingLinks (callList "union" members) = [] := by
    rw [trailingLinks, split]
  rw [readProperty.eq_def, readExpression_eq split, readCall_union_eq, pieces, links]
  cases members.mapM readExpression with
  | ok nodes => rfl
  | error setback => cases setback <;> rfl

/-- Members with commas in their brackets and literals are told apart. -/
theorem readProperty_union_literals :
    let members := ["z.literal(\"a, b\")".toList, "z.array()".toList]
    (∀ member ∈ members, isClosed keepsPiece member = true) ∧
      (∀ member ∈ members, allBlank member = false) ∧
      readProperty "p" (callList "union" members) = .ok (.union {}
        (some [.literal {} (.text "a, b"), .array {} none])) := by
  intro members
  have short : (Json.Scalar.text "a, b").isShort = true := rfl
  have literal : readExpression "z.literal(\"a, b\")".toList =
      .ok (.literal {} (.text "a, b")) :=
    readExpression_of_split
      (by decide +kernel :
        splitChain _ = some ⟨some ⟨"literal", Json.writeText "a, b"⟩, []⟩)
      (readCall_literal short) rfl
  have array : readExpression "z.array()".toList = .ok (.array {} none) := by
    refine readExpression_of_split
      (by decide +kernel : splitChain _ = some ⟨some ⟨"array", []⟩, []⟩) ?_ rfl
    rw [readCall.eq_def]
    rfl
  have closed : ∀ member ∈ members, isClosed keepsPiece member = true := by decide +kernel
  have visible : ∀ member ∈ members, allBlank member = false := by decide +kernel
  have whole := readProperty_union "p" closed visible
  refine ⟨closed, visible, ?_⟩
  rw [whole, List.mapM_cons, literal, List.mapM_cons, array]
  rfl

/-- A reference to another schema among the members makes a text of the whole
union, where the other member alone is one. -/
theorem readProperty_union_fails :
    let members := ["z.string()".toList, "Other".toList]
    (∀ member ∈ members, isClosed keepsPiece member = true ∧ allBlank member = false) ∧
      vocabulary.lookup "p" = none ∧
      readExpression "z.string()".toList = .ok (.leaf {} .string) ∧
      readExpression "Other".toList = .error .unsupported ∧
      readProperty "p" (callList "union" members) ≠
        .ok (.union {} (some [.leaf {} .string, .any])) := by
  intro members
  have first : readExpression "z.string()".toList = .ok (.leaf {} .string) :=
    readExpression_leaf (by decide +kernel : splitChain _ = some ⟨some ⟨"string", []⟩, []⟩)
      rfl
  have second : readExpression "Other".toList = .error .unsupported :=
    readExpression_unsupported (by decide +kernel)
  have split : splitChain (callList "union" members) =
      some ⟨some ⟨"union", '[' :: (entries members ++ [']'])⟩, []⟩ := by
    decide +kernel
  have spaced : readExpression " Other".toList = .error .unsupported :=
    readExpression_unsupported (by decide +kernel)
  have pieces : splitTopLevel (entries members) =
      ["z.string()".toList, " Other".toList] := by
    decide +kernel
  have stopped : readMembers (splitTopLevel (entries members)) = .error .unsupported := by
    rw [pieces, readMembers.eq_def]
    simp only [first]
    rw [readMembers.eq_def]
    simp only [spaced]
  have unknown : vocabulary.lookup "p" = none := by decide +kernel
  have whole : readProperty "p" (callList "union" members) = .ok (.leaf {} .string) := by
    have classified : (classifyKind (callList "union" members)).map Rule.verdict =
        some (.plain (.leaf .string)) := by
      decide +kernel
    obtain ⟨rule, found, verdict⟩ := Option.map_eq_some_iff.mp classified
    have fallback : fallbackNode "p" (callList "union" members) = .leaf {} .string := by
      rw [fallbackNode, unknown]
      simp only [found, verdict]
      rfl
    have links : trailingLinks (callList "union" members) = [] := by decide +kernel
    rw [readProperty.eq_def, readExpression_eq split, readCall_union_eq, stopped]
    simp only [fallback, links]
    rfl
  refine ⟨by decide +kernel, unknown, first, second, ?_⟩
  rw [whole]
  simp

/-- A property of an object body, from its name and the text of its schema. -/
def writeField (field : String × List Char) : List Char :=
  writeKey field.1 ++ ':' :: ' ' :: field.2

theorem balanced_writeKey {name : String} (plain : isPlainName name = true) :
    Balanced keepsPiece (writeKey name) := by
  rw [writeKey]
  split
  next identifier =>
    apply Balanced.of_plain
    intro char member
    have code := isCode_of_isName (isName_of_isIdentifier identifier plain) char member
    obtain ⟨-, noOpener, noCloser, noQuote, -⟩ := isCode_iff.mp code
    have keeps := keepsOn_of_isCode code
    rw [keepsOn, Bool.and_eq_true] at keeps
    exact ⟨noOpener, noCloser, noQuote, keeps.2⟩
  next => exact balanced_writeText keepsPiece name

theorem balanced_writeField {field : String × List Char}
    (plain : isPlainName field.1 = true) (closed : isClosed keepsPiece field.2 = true) :
    Balanced keepsPiece (writeField field) :=
  .append (balanced_writeKey plain) <|
    .cons rfl rfl (by decide) rfl <|
      .cons rfl rfl (by decide) rfl (balanced_of_isClosed closed)

theorem visible_writeField (field : String × List Char) :
    allBlank (writeField field) = false := by
  simp [allBlank, writeField, isBlank]

/-- Properties are read one after the other, each on its own, into the ones read
before. -/
theorem readProperties_fields {fields : List (String × List Char)} {nodes : List Node}
    {pieces : List (List Char)}
    (plain : ∀ field ∈ fields, isPlainName field.1 = true)
    (leading : ∀ field ∈ fields, Stops isBlank field.2)
    (read : List.Forall₂ (fun field node => readProperty field.1 field.2 = .ok node)
      fields nodes)
    (led : List.Forall₂ Led (fields.map writeField) pieces)
    (before : List (String × Node)) :
    readProperties before pieces =
      .ok (((fields.map Prod.fst).zip nodes).foldl
        (fun before field => setField field.1 field.2 before) before) := by
  induction read generalizing pieces before with
  | nil =>
      cases led
      rw [readProperties.eq_def]
      rfl
  | cons read _ ih =>
      cases led with
      | cons led others =>
          obtain ⟨plain, othersPlain⟩ := List.forall_mem_cons.mp plain
          obtain ⟨leading, othersLeading⟩ := List.forall_mem_cons.mp leading
          obtain ⟨gap, blank, rfl⟩ := led
          obtain ⟨key, found, named⟩ := property?_writeKey plain blank leading
          rw [writeField, readProperties_cons_eq found, named]
          simp only [read]
          exact ih othersPlain othersLeading others _

/-- Each property of an object is read as it is read on its own. A name stands
where it first appears, with the node that is read last for it. -/
theorem readCall_object_fields {fields : List (String × List Char)} {nodes : List Node}
    (plain : ∀ field ∈ fields, isPlainName field.1 = true)
    (leading : ∀ field ∈ fields, Stops isBlank field.2)
    (closed : ∀ field ∈ fields, isClosed keepsPiece field.2 = true)
    (read : List.Forall₂ (fun field node => readProperty field.1 field.2 = .ok node)
      fields nodes) :
    ∃ properties,
      readCall "object" ('{' :: (entries (fields.map writeField) ++ ['}'])) =
        .ok (.object {} properties) ∧
      properties.map Prod.fst = (fields.map Prod.fst).eraseDups ∧
      ∀ name, properties.lookup name =
        ((fields.map Prod.fst).zip nodes).reverse.lookup name := by
  have pieces : List.Forall₂ Led (fields.map writeField)
      (splitTopLevel (entries (fields.map writeField))) := by
    apply splitTopLevel_entries
    · rw [List.forall_mem_map]
      exact fun field member =>
        balanced_writeField (plain field member) (closed field member)
    · rw [List.forall_mem_map]
      exact fun field _ => visible_writeField field
  have names : ((fields.map Prod.fst).zip nodes).map Prod.fst = fields.map Prod.fst :=
    List.map_fst_zip (by rw [List.length_map, read.length_eq])
  refine ⟨setFields ((fields.map Prod.fst).zip nodes), ?_, ?_, ?_⟩
  · rw [readCall_object_eq, readProperties_fields plain leading read pieces]
    rfl
  · rw [map_fst_setFields, names]
  · exact lookup_setFields _

/-- A name with a blank that is given twice, and a reference between its two
schemas. -/
theorem readCall_object_fields_repeated :
    let fields := [("a b", "z.string()".toList), ("c", "Other.nullish()".toList),
      ("a b", "z.date()".toList)]
    (∀ field ∈ fields, isPlainName field.1 = true) ∧
      (∀ field ∈ fields, Stops isBlank field.2) ∧
      (∀ field ∈ fields, isClosed keepsPiece field.2 = true) ∧
      ∃ properties,
        readCall "object" ('\x7b' :: (entries (fields.map writeField) ++ ['\x7d'])) =
          .ok (.object {} properties) ∧
        properties.map Prod.fst = ["a b", "c"] ∧
        properties.lookup "a b" = some (.leaf {} .date) ∧
        properties.lookup "c" = some (.leaf { nullable := true, optional := true } .any) := by
  intro fields
  have text : readProperty "a b" "z.string()".toList = .ok (.leaf {} .string) := by
    have told : readExpression "z.string()".toList = .ok (.leaf {} .string) :=
      readExpression_leaf (by decide +kernel : splitChain _ = some ⟨some ⟨"string", []⟩, []⟩)
        rfl
    rw [readProperty.eq_def, told]
  have date : readProperty "a b" "z.date()".toList = .ok (.leaf {} .date) := by
    have told : readExpression "z.date()".toList = .ok (.leaf {} .date) :=
      readExpression_leaf (by decide +kernel : splitChain _ = some ⟨some ⟨"date", []⟩, []⟩)
        rfl
    rw [readProperty.eq_def, told]
  have reference : readProperty "c" "Other.nullish()".toList =
      .ok (.leaf { nullable := true, optional := true } .any) := by
    have unknown : vocabulary.lookup "c" = none := by decide +kernel
    have classified : classifyKind "Other.nullish()".toList = none := by
      decide +kernel
    have links : trailingLinks "Other.nullish()".toList = [⟨"nullish", []⟩] := by
      decide +kernel
    rw [readProperty.eq_def, readExpression_unsupported (by decide +kernel)]
    simp only [fallbackNode, unknown, classified, links]
    rfl
  have plain : ∀ field ∈ fields, isPlainName field.1 = true := by decide +kernel
  have leading : ∀ field ∈ fields, Stops isBlank field.2 := by
    simp only [fields, List.forall_mem_cons]
    exact ⟨stops_cons rfl, stops_cons rfl, stops_cons rfl, by simp⟩
  have closed : ∀ field ∈ fields, isClosed keepsPiece field.2 = true := by decide +kernel
  obtain ⟨properties, read, names, contents⟩ := readCall_object_fields plain leading closed
    (.cons text (.cons reference (.cons date .nil)))
  refine ⟨plain, leading, closed, properties, read, ?_, ?_, ?_⟩
  · rw [names]
    decide +kernel
  · rw [contents]
    rfl
  · rw [contents]
    rfl

end TwinSchema.Source
