import TwinSchema.Proofs.Source.RoundTrip

/-!
# Several declarations

Source text that declares one schema after another is read as the first schema
that is exported, or as the first one where none is. What stands in strings is
never taken for a declaration, since a declaration ends at its semicolon and no
string holds an assignment.
-/

namespace TwinSchema.Source

open Text

/-- The words that declare a name. -/
def declaringWords : List String := ["const", "let", "var"]

/-- A declaration of a node that source text can tell, under a name and in a
layout. -/
structure Declaration where
  exported : Bool
  word : String
  name : List Char
  laidOut : Bool
  step : Int
  node : Node
  declares : word ∈ declaringWords
  named : isName name = true
  valid : node.isValid = true
  safe : node.isSafe = true

namespace Declaration

/-- What is declared. -/
def expression (declaration : Declaration) : List Char :=
  write declaration.laidOut declaration.step declaration.node

/-- The beginning of a declaration, up to what is declared. -/
def head (declaration : Declaration) : List Char :=
  declaration.word.toList ++ ' ' :: (declaration.name ++ [' ', '=', ' '])

/-- A declaration on a line of its own. -/
def text (declaration : Declaration) : List Char :=
  (if declaration.exported then "export ".toList else []) ++
    (declaration.head ++ (declaration.expression ++ [';', '\n']))

/-- The declaration that counts among several: the first exported one, or else
the first. -/
def selected (first : Declaration) (others : List Declaration) : Declaration :=
  ((first :: others).find? exported).getD first

/-- A declaration with what follows it, in parts. -/
theorem text_append (declaration : Declaration) (rest : List Char) :
    declaration.text ++ rest =
      (if declaration.exported then "export ".toList else []) ++
        (declaration.head ++ (declaration.expression ++ ';' :: '\n' :: rest)) := by
  simp only [text, List.append_assoc, List.cons_append, List.nil_append]

section Expressions

variable (declaration : Declaration)

theorem exists_fragment : ∃ style,
    declaration.expression = (nodeFragment declaration.node).text style 0 ∧
      (nodeFragment declaration.node).Sound := by
  obtain ⟨style, written⟩ := exists_style declaration.laidOut declaration.step
    declaration.valid declaration.safe
  exact ⟨style, written, sound_nodeFragment _ declaration.valid declaration.safe⟩

/-- A lasting property lasts over what is declared. -/
theorem carry {property : List Char → Prop} (carries : Carries property)
    {rest : List Char} (others : property rest) :
    property (declaration.expression ++ rest) := by
  obtain ⟨style, written, sound⟩ := declaration.exists_fragment
  rw [written]
  exact carries.fragment sound style 0 others

theorem holdsAssignment_expression :
    holdsAssignment declaration.expression = false := by
  obtain ⟨style, written, sound⟩ := declaration.exists_fragment
  rw [written]
  exact (sound.tame style 0).holdsAssignment_eq

theorem exists_schema : ∃ rest, declaration.expression = 'z' :: '.' :: rest := by
  obtain ⟨style, written, -⟩ := declaration.exists_fragment
  rw [written, text_chainFragment]
  exact ⟨_, rfl⟩

theorem statement_expression (rest : List Char) :
    statement .code 0 (declaration.expression ++ ';' :: rest) =
      declaration.expression := by
  obtain ⟨style, written, sound⟩ := declaration.exists_fragment
  have keeps : ∀ char, keepsOn char = true → keepsStatement char = true :=
    fun char both => (Bool.and_eq_true _ _ ▸ both).1
  have whole := statement_append ((sound.balanced style 0).mono keeps) 0
    (fun _ _ kept => kept) (';' :: rest)
  have ends : statement .code 0 (';' :: rest) = [] := rfl
  rw [written, whole, ends, List.append_nil]

theorem readExpression_expression :
    readExpression declaration.expression = .ok declaration.node.canon := by
  obtain ⟨style, written, sound⟩ := declaration.exists_fragment
  rw [written]
  exact readExpression_padded sound
    (readCall_argument style 0 _ declaration.valid declaration.safe)
    (padded_self _)

end Expressions

/-! ## Cleaning -/

/-- Declaring words begin neither an import nor an export. -/
theorem exists_letter (declaration : Declaration) :
    ∃ letter rest, declaration.word.toList = letter :: rest ∧
      letter ∈ ['c', 'l', 'v'] := by
  have member := declaration.declares
  simp only [declaringWords, List.mem_cons, List.not_mem_nil, or_false] at member
  rcases member with same | same | same <;> rw [same] <;>
    exact ⟨_, _, rfl, by decide⟩

theorem declaringWord?_head (declaration : Declaration) (rest : List Char) :
    declaringWord? (declaration.word.toList ++ rest) = some rest := by
  have member := declaration.declares
  simp only [declaringWords, List.mem_cons, List.not_mem_nil, or_false] at member
  rcases member with same | same | same <;> rw [same] <;> rfl

/-- The beginning of a declaration stays on its line and holds no comment. -/
theorem plain_head (declaration : Declaration) :
    ∀ char ∈ declaration.head, char ∉ sourceQuotes ∧ char ≠ '/' ∧ char ≠ '\n' := by
  intro char member
  simp only [head, List.mem_append, List.mem_cons] at member
  have letters : (declaringWords.all fun word => word.toList.all fun char =>
      decide (char ∉ sourceQuotes ∧ char ≠ '/' ∧ char ≠ '\n')) = true := by
    decide
  simp only [List.all_eq_true, decide_eq_true_eq] at letters
  rcases member with inWord | rfl | inName | rfl | rfl | rfl | none
  · exact letters _ declaration.declares char inWord
  · decide
  · have code := isCode_of_isName declaration.named char inName
    have keeps := keepsOn_of_isCode code
    obtain ⟨-, -, -, noQuote, noSign⟩ := isCode_iff.mp code
    simp only [List.mem_cons, List.not_mem_nil, or_false, not_or] at noSign
    refine ⟨noQuote, noSign.1, ?_⟩
    rintro rfl
    cases keeps
  · decide
  · decide
  · decide
  · cases none

theorem eraseStatements_text {form : List Char → Option (List Char)}
    (spares : SparesCalm form)
    (fails : ∀ (declaration : Declaration) rest,
      form (declaration.text ++ rest) = none)
    (declarations : List Declaration) :
    eraseStatements form (declarations.flatMap text) =
      declarations.flatMap text := by
  rw [eraseStatements]
  induction declarations with
  | nil => rfl
  | cons declaration others ih =>
      have ending : eraseFrom form 0 false (';' :: '\n' :: others.flatMap text) =
          ';' :: '\n' :: others.flatMap text := by
        have broken : eraseFrom form 0 false
            (';' :: '\n' :: others.flatMap text) =
              ';' :: '\n' :: eraseFrom form 0 true (others.flatMap text) := rfl
        rw [broken, ih]
      have line : '\n' ∉ (if declaration.exported then "export ".toList else []) ++
          declaration.head := by
        rw [List.mem_append, not_or]
        constructor
        · split <;> decide
        · intro member
          exact (declaration.plain_head _ member).2.2 rfl
      rw [List.flatMap_cons, eraseFrom_lineStart (fails declaration _), text_append,
        ← List.append_assoc, eraseFrom_line form line,
        declaration.carry (carries_eraseFrom spares) ending]

theorem stripComments_text (declarations : List Declaration) :
    Relaxed.stripComments sourceQuotes (declarations.flatMap text) =
      declarations.flatMap text := by
  rw [Relaxed.stripComments]
  induction declarations with
  | nil => rfl
  | cons declaration others ih =>
      have ending : Relaxed.stripFrom sourceQuotes (.text .code)
          (';' :: '\n' :: others.flatMap text) =
            ';' :: '\n' :: others.flatMap text := by
        rw [Relaxed.stripFrom_char (by decide) (by decide),
          Relaxed.stripFrom_char (by decide) (by decide), ih]
      have line : ∀ char ∈ (if declaration.exported then "export ".toList else []) ++
          declaration.head, char ∉ sourceQuotes ∧ char ≠ '/' := by
        intro char member
        rcases List.mem_append.mp member with exported | inside
        · have letters : ("export ".toList.all fun char =>
              decide (char ∉ sourceQuotes ∧ char ≠ '/')) = true := by
            decide
          split at exported
          · exact of_decide_eq_true (List.all_eq_true.mp letters char exported)
          · cases exported
        · exact ⟨(declaration.plain_head char inside).1,
            (declaration.plain_head char inside).2.1⟩
      rw [List.flatMap_cons, text_append, ← List.append_assoc,
        Relaxed.stripFrom_code line,
        declaration.carry carries_stripFrom ending]

/-- A declaration begins with a letter that begins no import. -/
theorem exists_first (declaration : Declaration) :
    ∃ char rest, declaration.text = char :: rest ∧ char ≠ 'i' ∧
      isInlineBlank char = false ∧ isBlank char = false := by
  obtain ⟨letter, rest, same, member⟩ := declaration.exists_letter
  rw [text, head, same]
  cases declaration.exported with
  | true => exact ⟨'e', _, rfl, by decide⟩
  | false =>
      have others : (['c', 'l', 'v'].all fun char => decide (char ≠ 'i' ∧
          isInlineBlank char = false ∧ isBlank char = false)) = true := by
        decide
      exact ⟨letter, _, rfl,
        of_decide_eq_true (List.all_eq_true.mp others letter member)⟩

theorem importWord?_text (declaration : Declaration) (rest : List Char) :
    importWord? (declaration.text ++ rest) = none := by
  obtain ⟨char, others, same, different, visible, -⟩ := declaration.exists_first
  have letters : "import".toList = ['i', 'm', 'p', 'o', 'r', 't'] := rfl
  rw [same, List.cons_append, importWord?,
    List.dropWhile_cons_of_neg (by simp [visible]), letters, dropWord?,
    if_neg different]
  rfl

/-- A name between blanks is bound to what follows the equals sign. -/
theorem binding?_name {name : List Char}
    (parts : ∀ char ∈ name, isNamePart char = true) (rest : List Char) :
    binding? (' ' :: (name ++ ' ' :: '=' :: rest)) = some ('=' :: rest) := by
  have names : ∀ char ∈ ' ' :: (name ++ [' ']), isBindingChar char = true := by
    intro char member
    simp only [List.mem_cons, List.mem_append, List.not_mem_nil,
      or_false] at member
    rcases member with rfl | inside | rfl
    · decide
    · have part := parts char inside
      rw [isNamePart, Bool.or_eq_true] at part
      simp only [isBindingChar, Bool.or_eq_true]
      tauto
    · decide
  have stops : Stops isBindingChar ('=' :: rest) := stops_cons (by decide)
  have whole : ' ' :: (name ++ ' ' :: '=' :: rest) =
      ' ' :: (name ++ [' ']) ++ '=' :: rest := by
    simp
  rw [whole, binding?]
  simp only [takeWhile_run names stops, dropWhile_run names stops]
  simp [isBlank]

/-- What is declared is no required module. -/
theorem requireCall?_text (declaration : Declaration) (rest : List Char) :
    requireCall? (declaration.text ++ rest) = none := by
  obtain ⟨char, others, same, different, visible, -⟩ := declaration.exists_first
  obtain ⟨schema, begins⟩ := declaration.exists_schema
  have stays : (declaration.text ++ rest).dropWhile isInlineBlank =
      declaration.text ++ rest := by
    rw [same, List.cons_append, List.dropWhile_cons_of_neg (by simp [visible])]
  rw [requireCall?, stays, text_append]
  cases declaration.exported with
  | true => rfl
  | false =>
      have noCall : dropWord? "require(".toList
          (trimLeft (' ' :: ('z' :: '.' :: schema ++ ';' :: '\n' :: rest))) = none :=
        rfl
      have parts : declaration.head ++
          (declaration.expression ++ ';' :: '\n' :: rest) =
            declaration.word.toList ++ (' ' :: (declaration.name ++ ' ' :: '=' ::
              (' ' :: ('z' :: '.' :: schema ++ ';' :: '\n' :: rest)))) := by
        simp [head, begins]
      rw [if_neg (by decide), List.nil_append, parts, declaringWord?_head]
      simp only [Option.bind_eq_bind, Option.bind_some,
        binding?_name (isNamePart_of_isName declaration.named), dropChar?, if_true, noCall,
        Option.bind_none]

theorem clean_text (declarations : List Declaration) :
    clean (declarations.flatMap text) = declarations.flatMap text := by
  have noImportFrom : ∀ (declaration : Declaration) rest,
      importFrom? (declaration.text ++ rest) = none := by
    intro declaration rest
    rw [importFrom?, importWord?_text]
    rfl
  have noImport : ∀ (declaration : Declaration) rest,
      importModule? (declaration.text ++ rest) = none := by
    intro declaration rest
    rw [importModule?, importWord?_text]
    rfl
  rw [clean, eraseStatements_text sparesCalm_importFrom? noImportFrom,
    eraseStatements_text sparesCalm_importModule? noImport,
    eraseStatements_text sparesCalm_requireCall? requireCall?_text,
    stripComments_text]

/-! ## Searching -/

theorem rightSide?_head (declaration : Declaration) (rest : List Char) :
    rightSide? (declaration.head ++ (declaration.expression ++ rest)) =
      some (declaration.expression ++ rest) := by
  obtain ⟨schema, begins⟩ := declaration.exists_schema
  have parts : declaration.head ++ (declaration.expression ++ rest) =
      declaration.word.toList ++ (' ' :: (declaration.name ++ ' ' :: '=' ::
        (' ' :: (declaration.expression ++ rest)))) := by
    simp only [head, List.append_assoc, List.cons_append, List.nil_append]
  have named : blanks? (' ' :: (declaration.name ++ ' ' :: '=' ::
      (' ' :: (declaration.expression ++ rest)))) =
        some (declaration.name ++ ' ' :: '=' ::
          (' ' :: (declaration.expression ++ rest))) := by
    rw [blanks?, if_pos (by decide),
      trimLeft_of_stops (stops_of_isName declaration.named _)]
  have stops : Stops isNamePart (' ' :: '=' ::
      (' ' :: (declaration.expression ++ rest))) := stops_cons (by decide)
  have noType : annotation? (trimLeft (' ' :: '=' ::
      (' ' :: (declaration.expression ++ rest)))) =
        some ('=' :: (' ' :: (declaration.expression ++ rest))) := rfl
  have visible : trimLeft (' ' :: (declaration.expression ++ rest)) =
      declaration.expression ++ rest := by
    rw [begins]
    rfl
  have schemaBegins : beginsSchema (declaration.expression ++ rest) = true := by
    rw [begins]
    rfl
  rw [parts, rightSide?, declaringWord?_head]
  simp only [Option.bind_eq_bind, Option.bind_some, named,
    name?_append declaration.named stops, noType, dropChar?, if_true, visible,
    schemaBegins]

end Declaration

/-- A search passes over a text in which its form matches nowhere. -/
theorem search?_append {form : List Char → Option (List Char)}
    {text rest : List Char}
    (fails : ∀ suffix, suffix <:+ text → suffix ≠ [] → form (suffix ++ rest) = none) :
    search? form (text ++ rest) = search? form rest := by
  induction text with
  | nil => rfl
  | cons char text ih =>
      have here := fails _ (List.suffix_refl _) (List.cons_ne_nil _ _)
      rw [List.cons_append] at here ⊢
      rw [search?, here]
      exact ih fun suffix isSuffix =>
        fails suffix (isSuffix.trans (List.suffix_cons _ _))

theorem search?_of_match {form : List Char → Option (List Char)}
    {text found : List Char} (matched : form text = some found)
    (fails : form [] = none) : search? form text = some found := by
  cases text with
  | nil =>
      rw [fails] at matched
      cases matched
  | cons char rest => rw [search?, matched]

theorem Assigns.before_semicolon {text rest : List Char}
    (assigns : Assigns (text ++ ';' :: rest)) :
    Source.holdsAssignment text = true := by
  obtain ⟨schema, ⟨before, noSign, same⟩, begins⟩ := assigns
  rcases List.append_eq_append_iff.mp same with
    ⟨between, rfl, within⟩ | ⟨left, rfl, within⟩
  · cases between with
    | nil => cases within
    | cons char between =>
        rw [List.cons_append, List.cons.injEq] at within
        rw [← within.1] at noSign
        simp at noSign
  · cases left with
    | nil => cases within
    | cons char left =>
        rw [List.cons_append, List.cons.injEq] at within
        obtain ⟨rfl, rfl⟩ := within
        rw [beginsSchema_append (by decide) (by decide)] at begins
        exact holdsAssignment_of_suffix (List.suffix_append before _)
          (by simp [Source.holdsAssignment, begins])

/-- A search for assignments passes over a text without one that ends in a
semicolon. -/
theorem SeeksAssignment.search?_statement {form : List Char → Option (List Char)}
    (seeks : SeeksAssignment form) {text : List Char}
    (free : holdsAssignment text = false) (rest : List Char) :
    search? form (text ++ ';' :: rest) = search? form (';' :: rest) := by
  apply search?_append
  intro suffix isSuffix nonempty
  cases found : form (suffix ++ ';' :: rest) with
  | none => rfl
  | some right =>
      have holds := holdsAssignment_of_suffix isSuffix (seeks found).before_semicolon
      rw [free] at holds
      cases holds

namespace Declaration

/-- No export begins inside a word and the blank after it, unless what follows
the blank is a declaration. -/
theorem exportedRightSide?_word {word : List Char}
    (visible : ∀ char ∈ word, isBlank char = false) {rest : List Char}
    (noDeclaration : word = "export".toList → rightSide? (trimLeft rest) = none) :
    exportedRightSide? (word ++ ' ' :: rest) = none := by
  simp only [exportedRightSide?, Option.bind_eq_bind]
  cases dropped : dropWord? "export".toList (word ++ ' ' :: rest) with
  | none => rfl
  | some after =>
      obtain ⟨left, same, rfl⟩ := dropWord?_before (by decide) dropped
      cases left with
      | nil =>
          rw [List.append_nil] at same
          have blank : blanks? ([] ++ ' ' :: rest) = some (trimLeft rest) := rfl
          rw [Option.bind_some, blank, Option.bind_some, noDeclaration same]
      | cons char left =>
          have inside := visible char (by simp [same])
          simp [blanks?, inside]

theorem search?_unexported (declaration : Declaration)
    (unexported : declaration.exported = false) (rest : List Char) :
    search? exportedRightSide? (declaration.text ++ rest) =
      search? exportedRightSide? rest := by
  have parts : declaration.text ++ rest = declaration.word.toList ++
      (' ' :: (declaration.name ++ (' ' :: '=' :: ' ' ::
        (declaration.expression ++ ';' :: '\n' :: rest)))) := by
    rw [text_append, unexported]
    simp only [head, List.append_assoc, List.cons_append, List.nil_append,
      Bool.false_eq_true, if_false]
  have words : (declaringWords.all fun word =>
      word.toList.all (fun char => !isBlank char) &&
        decide (word.toList.length < "export".toList.length)) = true := by
    decide
  have here := List.all_eq_true.mp words _ declaration.declares
  rw [Bool.and_eq_true, decide_eq_true_eq] at here
  obtain ⟨letters, short⟩ := here
  have wordVisible : ∀ char ∈ declaration.word.toList, isBlank char = false :=
    fun char member => by simpa using List.all_eq_true.mp letters char member
  have nameVisible : ∀ char ∈ declaration.name, isBlank char = false :=
    fun char member => (isCode_iff.mp (isCode_of_isName declaration.named char
      member)).1
  rw [parts, search?_append]
  · have blank : ∀ others, search? exportedRightSide? (' ' :: others) =
        search? exportedRightSide? others := fun _ => rfl
    rw [blank, search?_append]
    · have sign : ∀ others, search? exportedRightSide? (' ' :: '=' :: ' ' :: others) =
          search? exportedRightSide? others := fun _ => rfl
      have seeks : SeeksAssignment exportedRightSide? :=
        assigns_of_exportedRightSide?
      rw [sign, seeks.search?_statement declaration.holdsAssignment_expression]
      rfl
    · intro suffix isSuffix _
      exact exportedRightSide?_word
        (fun char member => nameVisible char (isSuffix.subset member)) fun _ => rfl
  · intro suffix isSuffix _
    refine exportedRightSide?_word
      (fun char member => wordVisible char (isSuffix.subset member)) ?_
    intro same
    have := isSuffix.length_le
    rw [same] at this
    omega

theorem exportedRightSide?_export (declaration : Declaration) (rest : List Char) :
    exportedRightSide? ("export ".toList ++
      (declaration.head ++ (declaration.expression ++ rest))) =
        some (declaration.expression ++ rest) := by
  have dropped : ∀ others, dropWord? "export".toList ("export ".toList ++ others) =
      some (' ' :: others) := fun _ => rfl
  have blanks : blanks? (' ' :: (declaration.head ++
      (declaration.expression ++ rest))) =
        some (declaration.head ++ (declaration.expression ++ rest)) := by
    obtain ⟨letter, others, same, member⟩ := declaration.exists_letter
    have visible : isBlank letter = false := by
      simp only [List.mem_cons, List.not_mem_nil, or_false] at member
      rcases member with rfl | rfl | rfl <;> rfl
    rw [blanks?, if_pos (by decide), head, same]
    exact congrArg some (trimLeft_of_stops (stops_cons visible))
  rw [exportedRightSide?, dropped]
  simp only [Option.bind_eq_bind, Option.bind_some, blanks,
    declaration.rightSide?_head]

theorem exportedDeclaration?_text (declarations : List Declaration) :
    exportedDeclaration? (declarations.flatMap text) =
      (declarations.find? exported).map expression := by
  rw [exportedDeclaration?]
  induction declarations with
  | nil => rfl
  | cons declaration others ih =>
      rw [List.flatMap_cons, List.find?_cons]
      cases exported : declaration.exported with
      | false =>
          rw [declaration.search?_unexported exported]
          exact ih
      | true =>
          have found : search? exportedRightSide?
              (declaration.text ++ others.flatMap text) =
                some (declaration.expression ++ ';' :: '\n' ::
                  others.flatMap text) := by
            rw [text_append, exported, if_pos rfl]
            exact search?_of_match (declaration.exportedRightSide?_export _) rfl
          rw [found, Option.map_some, statement_expression]
          rfl

theorem declaration?_text (declaration : Declaration)
    (unexported : declaration.exported = false) (rest : List Char) :
    declaration? (declaration.text ++ rest) = some declaration.expression := by
  have found := search?_of_match
    (declaration.rightSide?_head (';' :: '\n' :: rest)) rfl
  rw [declaration?, text_append, unexported, if_neg (by decide), List.nil_append,
    found, Option.map_some, statement_expression]

/-- The expression of the selected declaration is the first that is looked at. -/
theorem firstReadable_text (first : Declaration) (others : List Declaration)
    (bare : Option (List Char)) (whole : List Char) :
    firstReadable whole
      [exportedDeclaration? ((first :: others).flatMap text),
        declaration? ((first :: others).flatMap text), bare] =
      .ok (some (selected first others).node.canon) := by
  rw [exportedDeclaration?_text, selected]
  cases found : (first :: others).find? exported with
  | some declaration =>
      rw [Option.map_some, Option.getD_some, firstReadable, readTopLevel,
        readExpression_expression]
  | none =>
      have unexported : first.exported = false := by
        have none := List.find?_eq_none.mp found first (List.mem_cons_self)
        simpa using none
      rw [Option.map_none, Option.getD_none, List.flatMap_cons,
        first.declaration?_text unexported, firstReadable, firstReadable,
        readTopLevel, readExpression_expression]

end Declaration

/-- Several declarations are read as the canonical form of the first exported
one, or of the first one where none is exported. -/
theorem read_declarations (first : Declaration) (others : List Declaration) :
    read ((first :: others).flatMap Declaration.text) =
      .ok (Declaration.selected first others).node.canon := by
  obtain ⟨char, rest, same, -, -, visible⟩ := first.exists_first
  have notBlank :
      ¬ allBlank ((first :: others).flatMap Declaration.text) = true := by
    rw [List.flatMap_cons, same, List.cons_append, allBlank, List.all_cons, visible]
    exact Bool.false_ne_true
  rw [read, Declaration.clean_text, readClean, if_neg notBlank,
    Declaration.firstReadable_text]

/-- The second declaration counts: the first one is not exported, though a
description in it looks as if something were. -/
theorem read_declarations_exported :
    let text :=
      "let a = z.object(\x7b\"x y\": ".toList ++
        "z.string().description(\"export const b = zod; // import 'c'\")\x7d);\n".toList ++
        "export const $b = z.object(\x7b\n  c: z.array(z.any())\n\x7d);\n".toList ++
        "export var c = z.date();\n".toList
    read text = .ok (.object {} [("c", .array {} (some .any))]) := by
  intro text
  let first : Declaration :=
    { exported := false, word := "let", name := ['a'], laidOut := false, step := 2
      node := .object {} [("x y", .leaf
        { description := some "export const b = zod; // import 'c'" } .string)]
      declares := by decide, named := by decide
      valid := by decide, safe := by decide }
  let second : Declaration :=
    { exported := true, word := "const", name := ['$', 'b'], laidOut := true, step := 2
      node := .object {} [("c", .array {} none)]
      declares := by decide, named := by decide
      valid := by decide, safe := by decide }
  let third : Declaration :=
    { exported := true, word := "var", name := ['c'], laidOut := false, step := 2
      node := .leaf {} .date
      declares := by decide, named := by decide
      valid := by decide, safe := by decide }
  have same : text = [first, second, third].flatMap Declaration.text := by
    decide +kernel
  rw [same]
  exact read_declarations first [second, third]

end TwinSchema.Source
