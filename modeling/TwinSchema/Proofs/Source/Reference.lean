import TwinSchema.Proofs.Source.Links

/-!
# References with links

A path of names is no constructor call, so a property with such a value falls back, and
the links behind the path apply to the node that stands in for it. The classification
rules look at the links as well. An array link makes that node an array once more, and so
does a description that mentions a call for arrays.
-/

namespace TwinSchema.Source

open Text

/-- How many arrays are nested at the root of a tree. -/
def arrayLevels : Node → Nat
  | .array _ (some items) => arrayLevels items + 1
  | .array _ none => 1
  | _ => 0

@[simp] theorem arrayLevels_setModifiers (modifiers : Modifiers) (node : Node) :
    arrayLevels (node.setModifiers modifiers) = arrayLevels node := by
  cases node with
  | array _ items => cases items <;> rfl
  | _ => rfl

@[simp] theorem arrayLevels_apply (node : Node) (change : Change) :
    arrayLevels (node.apply change) = arrayLevels node :=
  arrayLevels_setModifiers _ node

/-- The links for flags, quoted descriptions and arrays. -/
inductive Modifying : Link → Prop where
  | nullable : Modifying ⟨"nullable", []⟩
  | optional : Modifying ⟨"optional", []⟩
  | nullish : Modifying ⟨"nullish", []⟩
  | describe (literal : Relaxed.Literal) : Modifying ⟨"describe", literal.text⟩
  | array : Modifying ⟨"array", []⟩

/-- The links of a chain as they are written. -/
def writeLinks (links : List Link) : List Char :=
  links.flatMap fun written => link written.name written.arguments

theorem readDescription_literal (literal : Relaxed.Literal) :
    readDescription literal.text = .ok (some literal.value) := by
  have spelled : Relaxed.Spells literal.text (.text literal.value) :=
    ⟨.literal literal, by simp [Relaxed.Spelling.text, Relaxed.Spelling.pieces,
      Relaxed.Piece.text], rfl⟩
  obtain ⟨quote, letters, quoted, allowed⟩ := literal
  generalize Relaxed.Literal.value _ = value at spelled ⊢
  have visible : isBlank quote = false := by rcases quoted with rfl | rfl <;> decide
  have noTemplate : quote ≠ '\x60' := by rcases quoted with rfl | rfl <;> decide
  have closed : quote ≠ 't' := by rcases quoted with rfl | rfl <;> decide
  rw [Relaxed.Literal.text] at spelled ⊢
  have kept := dropConstAssertion_closed visible closed
    (quote :: letters.flatMap Relaxed.Letter.text)
  have decoded := decodeArgument_of_spells kept spelled
  rw [List.cons_append] at decoded ⊢
  simp only [readDescription, trim_enclosed _ visible visible, templateText?, noTemplate,
    false_and, if_false, decoded]
  rfl

namespace Modifying

variable {modifying : Link}

theorem isName_name (known : Modifying modifying) : isName modifying.name.toList = true := by
  have named : ∀ name ∈ linkNames, isName name.toList = true := by decide
  apply named
  cases known <;> simp [linkNames]

theorem balanced_arguments (known : Modifying modifying) :
    Balanced (fun _ => true) modifying.arguments := by
  cases known with
  | describe literal =>
      have quoted : literal.quote ∈ sourceQuotes := by
        rcases literal.quoted with same | same <;> rw [same] <;> decide
      rw [Relaxed.Literal.text, List.cons_append]
      exact .literal quoted literal.literalBody
  | _ => exact .nil

/-- A modifying link applies to every node, and only an array link makes an array. -/
theorem applyLink (known : Modifying modifying) (node : Node) :
    ∃ next, Source.applyLink node modifying = .ok next ∧
      arrayLevels next = arrayLevels node + [modifying].countP makesArray := by
  cases known with
  | array => exact ⟨_, rfl, rfl⟩
  | describe literal =>
      refine ⟨node.apply { description := literal.value }, ?_, arrayLevels_apply _ _⟩
      simp [Source.applyLink, readDescription_literal]
  | _ => exact ⟨_, rfl, arrayLevels_apply _ _⟩

end Modifying

section Links

variable {links : List Link} (known : ∀ modifying ∈ links, Modifying modifying)
include known

theorem links?_writeLinks : links? (writeLinks links) = some links := by
  induction links with
  | nil =>
      have blank : ∀ char ∈ ([] : List Char), isBlank char = true := by simp
      exact links?_blanks blank
  | cons modifying links ih =>
      obtain ⟨first, others⟩ := List.forall_mem_cons.mp known
      rw [writeLinks, List.flatMap_cons, ← writeLinks,
        links?_link first.isName_name first.balanced_arguments, ih others]
      rfl

theorem arrayLevels_applyLinks (node : Node) :
    ∃ result, applyLinks node links = .ok result ∧
      arrayLevels result = arrayLevels node + links.countP makesArray := by
  induction links generalizing node with
  | nil => exact ⟨node, rfl, rfl⟩
  | cons modifying links ih =>
      obtain ⟨first, others⟩ := List.forall_mem_cons.mp known
      obtain ⟨next, applied, levels⟩ := first.applyLink node
      obtain ⟨result, later, total⟩ := ih others next
      refine ⟨result, by rw [applyLinks_cons applied, later], ?_⟩
      rw [total, levels, Nat.add_assoc, ← List.countP_append, List.singleton_append]

end Links

/-- A path of names with dots between them. -/
def writePath (names : List (List Char)) : List Char := ['.'].intercalate names

theorem writePath_cons (first : List Char) (names : List (List Char)) :
    writePath (first :: names) = first ++ names.flatMap fun name => '.' :: name := by
  rw [writePath, Relaxed.intercalate_cons]
  rfl

/-- No name goes on over a dot or the end of a text. -/
theorem stops_segments (names : List (List Char)) (links : List Link) :
    Stops isNamePart ((names.flatMap fun name => '.' :: name) ++ writeLinks links) := by
  cases names with
  | cons name names => exact stops_cons (by decide)
  | nil =>
      cases links with
      | nil => exact stops_nil
      | cons modifying links => exact stops_cons (by decide)

/-- A longer name than the letter for constructors is no such letter. -/
theorem constructorHead?_of_isName {name : List Char} (named : isName name = true)
    (noCall : name ≠ ['z']) (rest : List Char) : constructorHead? (name ++ rest) = none := by
  rw [constructorHead?, trimLeft_of_stops (stops_of_isName named rest)]
  obtain ⟨letter, others, rfl, -, parts⟩ := exists_of_isName named
  rw [List.cons_append, dropChar?]
  split
  next => rfl
  next behind dropped =>
    split at dropped
    next same =>
      cases dropped
      cases others with
      | nil => exact absurd (by rw [same]) noCall
      | cons next others =>
          have part := parts next List.mem_cons_self
          have noDot : next ≠ '.' := by
            rintro rfl
            revert part
            decide
          rw [linkHead?, List.cons_append,
            trimLeft_of_stops (stops_cons (isBlank_of_isNamePart part)), dropChar?, if_neg noDot]
    next => cases dropped

section Paths

variable {names : List (List Char)} {links : List Link}
  (known : ∀ modifying ∈ links, Modifying modifying)
include known

/-- A path does not go on over a link, since a bracket follows the name there. -/
theorem pathEnd?_writeLinks (before : Option (List Char)) :
    pathEnd? before (writeLinks links) = some (writeLinks links) := by
  cases links with
  | nil => exact pathEnd?_eq before []
  | cons modifying links =>
      obtain ⟨first, -⟩ := List.forall_mem_cons.mp known
      have written : writeLinks (modifying :: links) = '.' :: (modifying.name.toList ++
          '(' :: (modifying.arguments ++ ')' :: writeLinks links)) := by
        simp [writeLinks, link]
      rw [written, pathEnd?_eq, segment?_name first.isName_name (stops_cons (by decide))]
      simp only
      rw [pathEnd?_eq]
      rfl

theorem pathEnd?_segments (named : ∀ name ∈ names, isName name = true)
    (before : Option (List Char)) :
    pathEnd? before ((names.flatMap fun name => '.' :: name) ++ writeLinks links) =
      some (writeLinks links) := by
  induction names generalizing before with
  | nil => exact pathEnd?_writeLinks known before
  | cons name names ih =>
      obtain ⟨first, others⟩ := List.forall_mem_cons.mp named
      have segment := segment?_name first (stops_segments names links)
      rw [List.flatMap_cons, List.append_assoc, List.cons_append, pathEnd?_eq, segment]
      exact ih others _

/-- A path that does not begin with the letter for constructors is a reference, and
the links behind it are its own. -/
theorem splitChain_reference {first : List Char}
    (named : ∀ word ∈ first :: names, isName word = true) (noCall : first ≠ ['z']) :
    splitChain (writePath (first :: names) ++ writeLinks links) = some ⟨none, links⟩ := by
  obtain ⟨head, others⟩ := List.forall_mem_cons.mp named
  have stops := stops_segments names links
  have path : reference? (first ++ ((names.flatMap fun name => '.' :: name) ++
      writeLinks links)) = some (writeLinks links) := by
    rw [reference?, trimLeft_of_stops (stops_of_isName head _), name?_append head stops]
    exact pathEnd?_segments known others none
  rw [writePath_cons, List.append_assoc, splitChain, constructorHead?_of_isName head noCall, path]
  simp only
  rw [links?_writeLinks known]
  rfl

end Paths

section Tokens

variable {word : List Char} {sign : Char}

theorem isPrefixOf_append_sign (notMem : sign ∉ word) (front rest : List Char) :
    word.isPrefixOf (front ++ sign :: rest) = word.isPrefixOf front := by
  induction word generalizing front with
  | nil => simp
  | cons expected word ih =>
      obtain ⟨different, others⟩ := not_or.mp (List.mem_cons.not.mp notMem)
      cases front with
      | nil => simp [List.isPrefixOf, Ne.symm different]
      | cons char front => simp [List.isPrefixOf, ih others]

/-- A word does not occur over a sign that is no part of it. -/
theorem occursIn_append_sign (notMem : sign ∉ word) (nonempty : word ≠ [])
    (front rest : List Char) :
    occursIn word (front ++ sign :: rest) = (occursIn word front || occursIn word rest) := by
  induction front with
  | nil =>
      have noFront := isPrefixOf_append_sign notMem [] rest
      rw [List.nil_append] at noFront
      rw [List.nil_append, occursIn.eq_2, noFront, occursIn.eq_1]
      cases word with
      | nil => exact absurd rfl nonempty
      | cons expected word => rfl
  | cons char front ih =>
      have same := isPrefixOf_append_sign notMem (char :: front) rest
      rw [List.cons_append] at same ⊢
      rw [occursIn, same, ih, occursIn, Bool.or_assoc]

theorem occursIn_nil (nonempty : word ≠ []) : occursIn word [] = false := by
  simp [occursIn, nonempty]

theorem occursIn_eq_false {char : Char} (inside : char ∈ word) {text : List Char}
    (without : char ∉ text) : occursIn word text = false := by
  have nonempty : word ≠ [] := List.ne_nil_of_mem inside
  induction text with
  | nil => exact occursIn_nil nonempty
  | cons next text ih =>
      rw [occursIn, ih (fun member => without (List.mem_cons_of_mem next member)),
        Bool.or_false, Bool.eq_false_iff]
      intro isPrefix
      exact without ((List.isPrefixOf_iff_prefix.mp isPrefix).subset inside)

/-- Texts behind signs hold a word that is free of the sign where one of them does. -/
theorem occursIn_flatMap_sign {Part : Type} (notMem : sign ∉ word) (nonempty : word ≠ [])
    (text : Part → List Char) (parts : List Part) (front : List Char) :
    occursIn word (front ++ parts.flatMap fun part => sign :: text part) =
      (occursIn word front || parts.any fun part => occursIn word (text part)) := by
  induction parts generalizing front with
  | nil => simp
  | cons part parts ih =>
      rw [List.flatMap_cons, List.cons_append, occursIn_append_sign notMem nonempty, ih,
        List.any_cons]

end Tokens

def mentions (token : String) (written : Link) : Bool :=
  occursIn token.toList (link written.name written.arguments)

/-- A token with a bracket occurs in a path with links where it occurs in a link. -/
theorem occursIn_reference {token : String} (bracket : '(' ∈ token.toList)
    (noDot : '.' ∉ token.toList) {names : List (List Char)} {first : List Char}
    (named : ∀ word ∈ first :: names, isName word = true) (links : List Link) :
    occursIn token.toList (writePath (first :: names) ++ writeLinks links) =
      links.any (mentions token) := by
  have nonempty : token.toList ≠ [] := List.ne_nil_of_mem bracket
  have noToken : ∀ name ∈ first :: names, occursIn token.toList name = false := by
    intro name member
    apply occursIn_eq_false bracket
    intro inside
    have part := isNamePart_of_isName (named name member) _ inside
    revert part
    decide
  have noPath : occursIn token.toList (writePath (first :: names)) = false := by
    rw [writePath_cons, occursIn_flatMap_sign noDot nonempty, noToken first List.mem_cons_self,
      Bool.false_or, List.any_eq_false]
    exact fun name member => by simp [noToken name (List.mem_cons_of_mem first member)]
  have behindDot : mentions token = fun written =>
      occursIn token.toList (written.name.toList ++ '(' :: written.arguments ++ [')']) := by
    funext written
    have split := occursIn_append_sign noDot nonempty []
      (written.name.toList ++ '(' :: written.arguments ++ [')'])
    rwa [List.nil_append, occursIn_nil nonempty, Bool.false_or] at split
  have whole := occursIn_flatMap_sign noDot nonempty
    (fun written : Link => written.name.toList ++ '(' :: written.arguments ++ [')']) links
    (writePath (first :: names))
  rw [noPath, Bool.false_or] at whole
  rw [behindDot]
  exact whole

/-- Outside of the vocabulary a property falls back to an array where its text mentions
a call for arrays and none for objects. -/
theorem arrayLevels_fallbackNode {name : String} (unknown : vocabulary.lookup name = none)
    (text : List Char) :
    arrayLevels (fallbackNode name text) =
      if occursIn "array(".toList text && !occursIn "object(".toList text then 1 else 0 := by
  have others : ∀ rule ∈ rules.drop 2, arrayLevels rule.verdict.node = 0 := by
    simp [rules, tokenRule, Verdict.node, Node.ofKind, arrayLevels, referenceSchema, objectNode]
  have table : rules = tokenRule .object "object(" :: tokenRule .array "array(" ::
      rules.drop 2 := rfl
  have row (kind : Kind) (token : String) :
      ((tokenRule kind token).verdict != .reference && (tokenRule kind token).applies text) =
        occursIn token.toList text := rfl
  rw [fallbackNode, unknown, classifyKind, table, List.find?_cons, List.find?_cons, row, row]
  cases occursIn "object(".toList text with
  | true => simp [tokenRule, Verdict.node, Node.ofKind, arrayLevels]
  | false =>
      cases occursIn "array(".toList text with
      | true => rfl
      | false =>
          simp only
          split
          next rule found => exact others rule (List.mem_of_find?_eq_some found)
          next => rfl

/-- A property that refers to another schema by a path of names is read as a node with one
level of arrays for each array link behind the path, and one more where the links mention
a call for arrays and none for objects. Every array link mentions one. -/
theorem readProperty_reference {name : String} (unknown : vocabulary.lookup name = none)
    {first : List Char} {names : List (List Char)}
    (named : ∀ word ∈ first :: names, isName word = true) (noCall : first ≠ ['z'])
    {links : List Link} (known : ∀ modifying ∈ links, Modifying modifying) :
    ∃ node, readProperty name (writePath (first :: names) ++ writeLinks links) = .ok node ∧
      arrayLevels node = links.countP makesArray +
        if links.any (mentions "array(") && !links.any (mentions "object(") then 1 else 0 := by
  have split := splitChain_reference known named noCall
  have unread := readExpression_unsupported
    (by rw [split]; rfl : (splitChain (writePath (first :: names) ++ writeLinks links)).bind
      Chain.call = none)
  have trailing : trailingLinks (writePath (first :: names) ++ writeLinks links) = links := by
    rw [trailingLinks, split]
  obtain ⟨node, applied, levels⟩ := arrayLevels_applyLinks known
    (fallbackNode name (writePath (first :: names) ++ writeLinks links))
  refine ⟨node, ?_, ?_⟩
  · rw [readProperty.eq_def, unread, trailing]
    exact applied
  · rw [levels, arrayLevels_fallbackNode unknown,
      occursIn_reference (by decide) (by decide) named,
      occursIn_reference (by decide) (by decide) named, Nat.add_comm]

/-- Two array links behind a path of two names make three levels of arrays. -/
theorem readProperty_reference_arrays :
    let description : Relaxed.Literal := .ofLetters [.short '"', .plain ')'] (by
      simp [Relaxed.Letter.Allowed, Json.shortEscape?])
    let links : List Link :=
      [⟨"array", []⟩, ⟨"describe", description.text⟩, ⟨"nullish", []⟩, ⟨"array", []⟩]
    vocabulary.lookup "slides" = none ∧
      (∀ word ∈ ["Post".toList, "$slide".toList], isName word = true) ∧
      "Post".toList ≠ ['z'] ∧ (∀ modifying ∈ links, Modifying modifying) ∧
      writePath ["Post".toList, "$slide".toList] ++ writeLinks links =
        "Post.$slide.array().describe(\"\\\")\").nullish().array()".toList ∧
      ∃ node, readProperty "slides"
          (writePath ["Post".toList, "$slide".toList] ++ writeLinks links) = .ok node ∧
        arrayLevels node = 3 := by
  intro description links
  have unknown : vocabulary.lookup "slides" = none := by decide +kernel
  have named : ∀ word ∈ ["Post".toList, "$slide".toList], isName word = true := by
    decide +kernel
  have noCall : "Post".toList ≠ ['z'] := by decide
  have known : ∀ modifying ∈ links, Modifying modifying := by
    simp only [links, List.forall_mem_cons]
    exact ⟨.array, .describe description, .nullish, .array, by simp⟩
  have levels : links.countP makesArray +
      (if links.any (mentions "array(") && !links.any (mentions "object(") then 1 else 0) =
        3 := by
    decide +kernel
  obtain ⟨node, read, count⟩ := readProperty_reference unknown named noCall known
  exact ⟨unknown, named, noCall, known, by decide +kernel, node, read, count.trans levels⟩

/-- A reference with one array link is read as an array of arrays. -/
theorem readProperty_reference_fails :
    vocabulary.lookup "p" = none ∧ isName "Foo".toList = true ∧ Modifying ⟨"array", []⟩ ∧
      writePath ["Foo".toList] ++ writeLinks [⟨"array", []⟩] = "Foo.array()".toList ∧
      readProperty "p" "Foo.array()".toList = .ok (.array {} (some (.array {} none))) ∧
      arrayLevels (.array {} (some (.array {} none))) = 2 ∧
      [(⟨"array", []⟩ : Link)].countP makesArray = 1 := by
  have unread : readExpression "Foo.array()".toList = .error .unsupported :=
    readExpression_unsupported (by decide +kernel)
  have trailing : trailingLinks "Foo.array()".toList = [⟨"array", []⟩] := by decide +kernel
  have classified : (classifyKind "Foo.array()".toList).map Rule.verdict =
      some (.plain .array) := by
    decide +kernel
  obtain ⟨rule, found, verdict⟩ := Option.map_eq_some_iff.mp classified
  have unknown : vocabulary.lookup "p" = none := by decide +kernel
  have fallback : fallbackNode "p" "Foo.array()".toList = .array {} none := by
    rw [fallbackNode, unknown]
    simp only [found, verdict]
    rfl
  refine ⟨unknown, by decide +kernel, .array, by decide +kernel, ?_, rfl, by decide⟩
  rw [readProperty.eq_def, unread, trailing, fallback]
  rfl

end TwinSchema.Source
