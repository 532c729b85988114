import Mathlib.Data.List.Infix
import TwinSchema.Proofs.Source.Declarations

/-!
# Comments and imports on lines of their own

What may stand in front of source text, and how the forms of import statements
deal with it: a form recognizes its own statements as far as they go and passes
over the others, and no form reaches beyond the end of a comment, except the one
of an import of names, which goes on to the first clause that names a module.
-/

namespace TwinSchema.Source

open Text

/-- What follows each line feed of a text. -/
def laterLines : List Char → List (List Char)
  | [] => []
  | char :: rest => if char = '\n' then rest :: laterLines rest else laterLines rest

theorem laterLines_eq_nil {text : List Char} (line : '\n' ∉ text) :
    laterLines text = [] := by
  induction text with
  | nil => rfl
  | cons char rest ih =>
      rw [List.mem_cons, not_or] at line
      rw [laterLines, if_neg (Ne.symm line.1), ih line.2]

/-- The later lines of a text in two parts begin in one of the parts. -/
theorem mem_laterLines_append {first second line : List Char}
    (later : line ∈ laterLines (first ++ second)) :
    (∃ inner ∈ laterLines first, line = inner ++ second) ∨
      line ∈ laterLines second := by
  induction first with
  | nil => exact .inr later
  | cons char first ih =>
      rw [List.cons_append, laterLines] at later
      rw [laterLines]
      split at later
      next feed =>
        rw [if_pos feed]
        rcases List.mem_cons.mp later with rfl | others
        · exact .inl ⟨first, List.mem_cons_self, rfl⟩
        · rcases ih others with ⟨inner, member, rfl⟩ | behind
          · exact .inl ⟨inner, List.mem_cons_of_mem _ member, rfl⟩
          · exact .inr behind
      next noFeed =>
        rw [if_neg noFeed]
        exact ih later

/-- A calm line stays calm before a sign that is in no leading word. -/
theorem Calm.append {line : List Char} (calm : Calm line) {sign : Char}
    (visible : isBlank sign = false) (noInline : isInlineBlank sign = false)
    (noLetter : ∀ word ∈ leadingWords, sign ∉ word.toList) (rest : List Char) :
    Calm (line ++ sign :: rest) := by
  intro word leading after dropped
  rw [dropWhile_append_stops (stops_cons noInline)] at dropped
  obtain ⟨left, same, rfl⟩ := dropWord?_before (noLetter word leading) dropped
  cases left with
  | nil => simp [blanks?, visible]
  | cons char left =>
      have begins : dropWord? word.toList (line.dropWhile isInlineBlank) =
          some (char :: left) := by
        rw [same, Relaxed.dropWord?_append]
      have noBlank := calm word leading _ begins
      rw [blanks?] at noBlank
      split at noBlank
      next => cases noBlank
      next visible => rw [List.cons_append, blanks?, if_neg visible]

/-- A module name between quotes. -/
structure Module where
  quote : Char
  name : List Char
  quotes : isModuleQuote quote = true
  plain : ∀ char ∈ name, isModuleQuote char = false ∧ char ≠ '\n'

/-- A module name as it is written. -/
def Module.text (origin : Module) : List Char :=
  origin.quote :: (origin.name ++ [origin.quote])

/-- Blanks between two words on a line. -/
structure Gap where
  blanks : List Char
  nonempty : blanks ≠ []
  inside : ∀ char ∈ blanks, isBlank char = true ∧ char ≠ '\n'

/-- The semicolon of a statement, which may be left out. -/
def ending (ended : Bool) : List Char := if ended then [';'] else []

/-- What may stand in front of source text: comments, and the forms of import
statements. -/
inductive Leading where
  | blank
  | lineComment (body : List Char)
      (within : ∀ char ∈ body, char ≠ '\r' ∧ char ≠ '\n')
  | blockComment (body : List Char) (within : occursIn ['*', '/'] body = false)
  | required (word : String) (declares : word ∈ declaringWords) (gap : Gap)
      (bindings : List Char) (nonempty : bindings ≠ [])
      (names : ∀ char ∈ bindings, isBindingChar char = true)
      (calm : ∀ line ∈ laterLines bindings, Calm line) (space : Gap)
      (origin : Module) (ended : Bool)
  | importModule (gap : Gap) (origin : Module) (ended : Bool)
  | importFrom (gap : Gap) (bindings : List Char)
      (free : ∀ char ∈ bindings, char ≠ ';' ∧ isModuleQuote char = false)
      (bounded : ∀ char ∈ bindings.getLast?, isWordChar char = false)
      (space : Gap) (origin : Module) (ended : Bool)

namespace Leading

/-- A comment or statement in parts. -/
def parts : Leading → List (List Char)
  | .blank => []
  | .lineComment body _ => [['/', '/'], body]
  | .blockComment body _ => [['/', '*'], body, ['*', '/']]
  | .required word _ gap bindings _ _ _ space origin ended =>
      [word.toList, gap.blanks, bindings, ['='], space.blanks,
        "require(".toList, origin.text, [')'], ending ended]
  | .importModule gap origin ended =>
      ["import".toList, gap.blanks, origin.text, ending ended]
  | .importFrom gap bindings _ _ space origin ended =>
      ["import".toList, gap.blanks, bindings, "from".toList, space.blanks,
        origin.text, ending ended]

/-- A comment or statement as it is written. -/
def text (leading : Leading) : List Char := leading.parts.flatten

def comment : Leading → List Char
  | .blockComment body _ => body
  | _ => []

/-- How many of the three erasing passes it takes until nothing but comments
remains. -/
def passes : Leading → Nat
  | .importFrom .. => 3
  | .importModule .. => 2
  | .required .. => 1
  | _ => 0

section Parts

variable (rest : List Char)

theorem text_lineComment (body : List Char) (within) :
    (lineComment body within).text ++ rest = '/' :: '/' :: (body ++ rest) := by
  simp [text, parts]

theorem text_blockComment (body : List Char) (within) :
    (blockComment body within).text ++ rest =
      '/' :: '*' :: (body ++ '*' :: '/' :: rest) := by
  simp [text, parts]

theorem text_required (word : String) (declares) (gap : Gap) (bindings : List Char)
    (nonempty names calm) (space : Gap) (origin : Module) (ended : Bool) :
    (required word declares gap bindings nonempty names calm space origin
        ended).text ++ rest =
      word.toList ++ (gap.blanks ++ (bindings ++ '=' :: (space.blanks ++
        ("require(".toList ++ (origin.text ++ ')' :: (ending ended ++ rest)))))) := by
  simp only [text, parts, List.flatten_cons, List.flatten_nil, List.append_nil,
    List.append_assoc, List.cons_append, List.nil_append]

theorem text_importModule (gap : Gap) (origin : Module) (ended : Bool) :
    (importModule gap origin ended).text ++ rest =
      "import".toList ++ (gap.blanks ++ (origin.text ++ (ending ended ++ rest))) := by
  simp only [text, parts, List.flatten_cons, List.flatten_nil, List.append_nil,
    List.append_assoc]

theorem text_importFrom (gap : Gap) (bindings : List Char) (free bounded)
    (space : Gap) (origin : Module) (ended : Bool) :
    (importFrom gap bindings free bounded space origin ended).text ++ rest =
      "import".toList ++ (gap.blanks ++ (bindings ++ ("from".toList ++
        (space.blanks ++ (origin.text ++ (ending ended ++ rest)))))) := by
  simp only [text, parts, List.flatten_cons, List.flatten_nil, List.append_nil,
    List.append_assoc]

end Parts

end Leading

/-- A comment or statement on a line of its own, or on several. -/
structure LeadingLine where
  indentation : List Char
  inline : ∀ char ∈ indentation, isInlineBlank char = true
  content : Leading

namespace LeadingLine

def empty : LeadingLine := ⟨[], by simp, .blank⟩

/-- A line as it is written, with its line feed. -/
def text (line : LeadingLine) : List Char :=
  line.indentation ++ (line.content.text ++ ['\n'])

end LeadingLine

/-- Leading lines in front of a text. -/
def preface (lines : List LeadingLine) (rest : List Char) : List Char :=
  lines.flatMap LeadingLine.text ++ rest

/-- Every statement of a form that begins in leading lines ends in them: one that
begins a line ends before a line feed, and one that begins inside a block comment
ends inside of it. -/
def Bounded (form : List Char → Option (List Char)) (rest : List Char) :
    List LeadingLine → Prop
  | [] => True
  | line :: lines =>
      (∀ after ∈ form (line.text ++ preface lines rest),
        ∃ later, later <:+ lines ∧ after = '\n' :: preface later rest) ∧
      (∀ inner ∈ laterLines line.content.comment,
        ∀ after ∈ form (inner ++ '*' :: '/' :: '\n' :: preface lines rest),
          ∃ left, left <:+ inner ∧
            after = left ++ '*' :: '/' :: '\n' :: preface lines rest) ∧
      Bounded form rest lines

instance Bounded.decidable (form : List Char → Option (List Char))
    (rest : List Char) : (lines : List LeadingLine) → Decidable (Bounded form rest lines)
  | [] => .isTrue trivial
  | line :: lines =>
      have := Bounded.decidable form rest lines
      decidable_of_iff
        ((∀ after ∈ form (line.text ++ preface lines rest),
            ∃ later ∈ lines.tails, after = '\n' :: preface later rest) ∧
          (∀ inner ∈ laterLines line.content.comment,
            ∀ after ∈ form (inner ++ '*' :: '/' :: '\n' :: preface lines rest),
              ∃ left ∈ inner.tails,
                after = left ++ '*' :: '/' :: '\n' :: preface lines rest) ∧
          Bounded form rest lines)
        (by simp only [Bounded, List.mem_tails])

theorem preface_cons (line : LeadingLine) (lines : List LeadingLine)
    (rest : List Char) :
    preface (line :: lines) rest =
      line.indentation ++ (line.content.text ++ '\n' :: preface lines rest) := by
  simp [preface, LeadingLine.text]

theorem preface_suffix {later lines : List LeadingLine} (isLater : later <:+ lines)
    (rest : List Char) :
    '\n' :: preface later rest <:+ '\n' :: preface lines rest := by
  obtain ⟨before, rfl⟩ := isLater
  induction before with
  | nil => exact List.suffix_refl _
  | cons line before ih =>
      rw [List.cons_append, preface_cons, ← List.append_assoc]
      exact (ih.trans (List.suffix_append _ _)).trans (List.suffix_cons _ _)

/-! ## Recognizing import statements -/

section Statements

variable {text : List Char} (rest : List Char)

theorem dropWhile_indentation (line : LeadingLine) (rest : List Char) :
    (line.indentation ++ rest).dropWhile isInlineBlank =
      rest.dropWhile isInlineBlank :=
  List.dropWhile_append_of_pos line.inline

theorem Gap.blanks?_append (gap : Gap) :
    blanks? (gap.blanks ++ rest) = some (trimLeft rest) := by
  obtain ⟨blanks, nonempty, inside⟩ := gap
  cases blanks with
  | nil => exact absurd rfl nonempty
  | cons char blanks =>
      rw [List.cons_append, blanks?, if_pos (inside char List.mem_cons_self).1,
        trimLeft_blanks fun next member =>
          (inside next (List.mem_cons_of_mem _ member)).1]

/-- The names between a word and an equals sign. -/
theorem Gap.binding?_append (gap : Gap) {bindings : List Char}
    (nonempty : bindings ≠ [])
    (names : ∀ char ∈ bindings, isBindingChar char = true) (rest : List Char) :
    binding? (gap.blanks ++ (bindings ++ '=' :: rest)) = some ('=' :: rest) := by
  have inside : ∀ char ∈ gap.blanks ++ bindings, isBindingChar char = true := by
    intro char member
    rcases List.mem_append.mp member with blank | name
    · simp [isBindingChar, (gap.inside char blank).1]
    · exact names char name
  have stops : Stops isBindingChar ('=' :: rest) := stops_cons (by decide)
  have first : (gap.blanks ++ bindings).head?.any isBlank = true := by
    obtain ⟨blanks, some, blank⟩ := gap
    cases blanks with
    | nil => exact absurd rfl some
    | cons char blanks => exact (blank char List.mem_cons_self).1
  have long : 2 ≤ (gap.blanks ++ bindings).length := by
    have := List.length_pos_iff.mpr gap.nonempty
    have := List.length_pos_iff.mpr nonempty
    rw [List.length_append]
    omega
  rw [← List.append_assoc, binding?]
  simp only [takeWhile_run inside stops, dropWhile_run inside stops]
  rw [first, Bool.true_and, decide_eq_true long, if_pos rfl]

theorem isBlank_of_isModuleQuote {char : Char} (quotes : isModuleQuote char = true) :
    isBlank char = false := by
  rw [isModuleQuote, Bool.or_eq_true, beq_iff_eq, beq_iff_eq] at quotes
  rcases quotes with rfl | rfl <;> decide

theorem Module.trimLeft_text (origin : Module) :
    trimLeft (origin.text ++ rest) = origin.text ++ rest :=
  trimLeft_of_stops (stops_cons (isBlank_of_isModuleQuote origin.quotes))

theorem Module.moduleName?_text (origin : Module) :
    moduleName? (origin.text ++ rest) = some rest := by
  have inside : ∀ char ∈ origin.name,
      (!(isModuleQuote char || char == '\n')) = true := by
    intro char member
    simp [origin.plain char member]
  have stops : Stops (fun char => !(isModuleQuote char || char == '\n'))
      (origin.quote :: rest) := stops_cons (by simp [origin.quotes])
  have whole : origin.name ++ [origin.quote] ++ rest =
      origin.name ++ origin.quote :: rest := by
    simp
  rw [Module.text, List.cons_append, moduleName?, if_pos origin.quotes, whole,
    dropWhile_run inside stops]
  exact if_pos origin.quotes

theorem statementEnd_ending (ended : Bool) :
    statementEnd (ending ended ++ '\n' :: rest) = '\n' :: rest := by
  cases ended <;> simp [ending, statementEnd, isInlineBlank, dropChar?]

theorem importWord?_gap (line : LeadingLine) (gap : Gap) :
    importWord? (line.indentation ++ ("import".toList ++ (gap.blanks ++ rest))) =
      some (trimLeft rest) := by
  have word : ∀ others, ("import".toList ++ others).dropWhile isInlineBlank =
      "import".toList ++ others := fun _ => rfl
  rw [importWord?, dropWhile_indentation, word, Relaxed.dropWord?_append,
    Option.bind_some, gap.blanks?_append]

/-- The word `from` does not overlap with itself. -/
theorem dropWord?_from {names after : List Char} (nonempty : names ≠ [])
    (dropped : dropWord? "from".toList (names ++ ("from".toList ++ rest)) =
      some after) :
    ∃ left, names = "from".toList ++ left ∧ after = left ++ ("from".toList ++ rest) := by
  rcases List.append_eq_append_iff.mp (dropWord?_eq_some dropped) with
    ⟨between, word, same⟩ | ⟨left, rfl, rfl⟩
  · match names, word with
    | [], _ => exact absurd rfl nonempty
    | [_], word => cases word; cases same
    | [_, _], word => cases word; cases same
    | [_, _, _], word => cases word; cases same
    | [_, _, _, _], word =>
        cases word
        exact ⟨[], rfl, by simpa using same.symm⟩
  · exact ⟨left, rfl, rfl⟩

/-- Names without quotes name no module. -/
theorem no_module_of_names {names : List Char} (nonempty : names ≠ [])
    (free : ∀ char ∈ names, isModuleQuote char = false) :
    ((dropWord? "from".toList (names ++ ("from".toList ++ rest))).bind blanks?).bind
      moduleName? = none := by
  cases dropped : dropWord? "from".toList (names ++ ("from".toList ++ rest)) with
  | none => rfl
  | some after =>
      obtain ⟨left, rfl, rfl⟩ := dropWord?_from rest nonempty dropped
      have letters : "from".toList = 'f' :: "rom".toList := rfl
      rw [Option.bind_some, letters, List.cons_append]
      cases left with
      | nil => rfl
      | cons char left =>
          rw [List.cons_append, blanks?]
          split
          next =>
            rw [Option.bind_some, trimLeft_append_visible (by decide)]
            have inside : ∀ next ∈ trimLeft left, isModuleQuote next = false :=
              fun next member => free next (List.mem_append_right _
                (List.mem_cons_of_mem _ ((List.dropWhile_sublist _).subset member)))
            cases same : trimLeft left with
            | nil => rfl
            | cons first left =>
                have plain := inside first (by simp [same])
                rw [List.cons_append, moduleName?, if_neg (by simp [plain])]
          next => rfl

theorem bounded_trimLeft {bindings : List Char}
    (bounded : ∀ char ∈ bindings.getLast?, isWordChar char = false) :
    ∀ char ∈ (' ' :: trimLeft bindings).getLast?, isWordChar char = false := by
  intro char last
  rw [List.getLast?_cons] at last
  cases same : (trimLeft bindings).getLast? with
  | none =>
      rw [same] at last
      cases last
      decide
  | some final =>
      rw [same] at last
      cases last
      obtain ⟨before, whole⟩ := List.dropWhile_suffix (l := bindings) isBlank
      rw [← whole, List.getLast?_append] at bounded
      exact bounded final (by simpa [trimLeft] using .inl same)

/-- The clause of an import is found behind names without quotes and
semicolons. -/
theorem fromClause?_bindings (previous : Char) {bindings : List Char}
    (free : ∀ char ∈ bindings, char ≠ ';' ∧ isModuleQuote char = false)
    (bounded : ∀ char ∈ (previous :: bindings).getLast?, isWordChar char = false)
    (space : Gap) (origin : Module) :
    fromClause? previous (bindings ++ ("from".toList ++ (space.blanks ++
      (origin.text ++ rest)))) = some rest := by
  induction bindings generalizing previous with
  | nil =>
      have apart : isWordChar previous = false := bounded previous rfl
      have letters : "from".toList = 'f' :: "rom".toList := rfl
      rw [List.nil_append, letters, List.cons_append, fromClause?, apart,
        ← List.cons_append, ← letters, Relaxed.dropWord?_append]
      simp only [Bool.false_eq_true, if_false, Option.bind_some,
        space.blanks?_append, origin.trimLeft_text, origin.moduleName?_text]
  | cons char bindings ih =>
      obtain ⟨noEnd, -⟩ := free char List.mem_cons_self
      have others := ih char
        (fun next member => free next (List.mem_cons_of_mem _ member))
        (by simpa [List.getLast?_cons_cons] using bounded)
      have none := no_module_of_names (space.blanks ++ (origin.text ++ rest))
        (List.cons_ne_nil char bindings) fun next member => (free next member).2
      rw [List.cons_append] at none ⊢
      rw [fromClause?, none, ite_self, others]
      exact if_neg noEnd

theorem importFrom?_line (line : LeadingLine)
    (statement : line.content.passes = 3) :
    importFrom? (line.indentation ++ (line.content.text ++ '\n' :: rest)) =
      some ('\n' :: rest) := by
  obtain ⟨indentation, inline, content⟩ := line
  cases content with
  | importFrom gap bindings free bounded space origin ended =>
      have visible : isBlank 'f' = false := by decide
      have letters : "from".toList = 'f' :: "rom".toList := rfl
      have names : trimLeft bindings ⊆ bindings := (List.dropWhile_sublist _).subset
      have clause := fromClause?_bindings (ending ended ++ '\n' :: rest) ' '
        (fun char member => free char (names member))
        (bounded_trimLeft bounded) space origin
      rw [Leading.text_importFrom, importFrom?,
        importWord?_gap _ ⟨indentation, inline, .blank⟩, Option.bind_some, letters,
        List.cons_append, trimLeft_append_visible visible, ← List.cons_append, ← letters, clause,
        Option.map_some, statementEnd_ending]
  | _ => cases statement

theorem importModule?_line (line : LeadingLine)
    (statement : line.content.passes = 2) :
    importModule? (line.indentation ++ (line.content.text ++ '\n' :: rest)) =
      some ('\n' :: rest) := by
  obtain ⟨indentation, inline, content⟩ := line
  cases content with
  | importModule gap origin ended =>
      rw [Leading.text_importModule, importModule?, importWord?_gap _ ⟨indentation, inline, .blank⟩,
        Option.bind_some, origin.trimLeft_text, origin.moduleName?_text,
        Option.map_some, statementEnd_ending]
  | _ => cases statement

theorem requireCall?_line (line : LeadingLine)
    (statement : line.content.passes = 1) :
    requireCall? (line.indentation ++ (line.content.text ++ '\n' :: rest)) =
      some ('\n' :: rest) := by
  obtain ⟨indentation, inline, content⟩ := line
  cases content with
  | required word declares gap bindings nonempty names calm space origin ended =>
      have declared : ∀ others, declaringWord?
          ((word.toList ++ others).dropWhile isInlineBlank) = some others := by
        simp only [declaringWords, List.mem_cons, List.not_mem_nil, or_false]
          at declares
        rcases declares with rfl | rfl | rfl <;> exact fun _ => rfl
      have bound : ∀ others, binding? (gap.blanks ++ (bindings ++ '=' :: others)) =
          some ('=' :: others) :=
        gap.binding?_append nonempty names
      have call : ∀ others, dropWord? "require(".toList
          (trimLeft (space.blanks ++ ("require(".toList ++ others))) = some others := by
        intro others
        rw [trimLeft_blanks fun char member => (space.inside char member).1]
        exact Relaxed.dropWord?_append _ others
      have sign : ∀ others, dropChar? '=' ('=' :: others) = some others :=
        fun _ => rfl
      have closed : ∀ others, dropChar? ')' (trimLeft (')' :: others)) = some others :=
        fun _ => rfl
      rw [Leading.text_required, requireCall?,
        dropWhile_indentation ⟨indentation, inline, .blank⟩, declared]
      simp only [Option.bind_eq_bind, Option.bind_some]
      rw [bound, Option.bind_some, sign, Option.bind_some, call, Option.bind_some,
        origin.trimLeft_text, origin.moduleName?_text, Option.bind_some, closed,
        Option.bind_some, statementEnd_ending]
      rfl
  | _ => cases statement

end Statements

/-! ## Statements inside comments -/

/-- A scanner that does not reach beyond the end of a comment. -/
def StaysInside (scan : List Char → Option (List Char)) : Prop :=
  ∀ inner rest after, scan (inner ++ '*' :: '/' :: '\n' :: rest) = some after →
    ∃ left, left <:+ inner ∧ after = left ++ '*' :: '/' :: '\n' :: rest

namespace StaysInside

variable {scan next : List Char → Option (List Char)}

theorem bind (first : StaysInside scan) (second : StaysInside next) :
    StaysInside fun text => (scan text).bind next := by
  intro inner rest after found
  obtain ⟨between, scanned, found⟩ := Option.bind_eq_some_iff.mp found
  obtain ⟨left, isSuffix, rfl⟩ := first _ _ _ scanned
  obtain ⟨last, isLast, rfl⟩ := second _ _ _ found
  exact ⟨last, isLast.trans isSuffix, rfl⟩

theorem or (first : StaysInside scan) (second : StaysInside next) :
    StaysInside fun text => (scan text).or (next text) := by
  intro inner rest after found
  rcases Option.or_eq_some_iff.mp found with found | ⟨-, found⟩
  · exact first _ _ _ found
  · exact second _ _ _ found

end StaysInside

theorem staysInside_dropWhile (test : Char → Bool) (stops : test '*' = false) :
    StaysInside fun text => some (text.dropWhile test) := by
  intro inner rest after found
  cases found
  exact ⟨inner.dropWhile test, List.dropWhile_suffix test,
    dropWhile_append_stops (stops_cons stops) inner⟩

theorem staysInside_dropWord? (word : List Char) (noStar : '*' ∉ word) :
    StaysInside (dropWord? word) := by
  intro inner rest after found
  obtain ⟨left, rfl, rfl⟩ := dropWord?_before noStar found
  exact ⟨left, List.suffix_append word left, rfl⟩

theorem staysInside_dropChar? (expected : Char) (noStar : expected ≠ '*') :
    StaysInside (dropChar? expected) := by
  intro inner rest after found
  have same := dropChar?_eq_some found
  cases inner with
  | nil => exact absurd (List.cons.inj same).1.symm noStar
  | cons char inner => exact ⟨inner, List.suffix_cons _ _, (List.cons.inj same).2.symm⟩

theorem staysInside_blanks? : StaysInside blanks? := by
  intro inner rest after found
  cases inner with
  | nil => cases found
  | cons char inner =>
      rw [List.cons_append, blanks?] at found
      split at found
      next =>
        cases found
        exact ⟨trimLeft inner, (List.dropWhile_suffix isBlank).trans
          (List.suffix_cons _ _), trimLeft_append_visible (by decide) inner _⟩
      next => cases found

theorem staysInside_moduleName? : StaysInside moduleName? := by
  intro inner rest after found
  cases inner with
  | nil => cases found
  | cons char inner =>
      rw [List.cons_append, moduleName?, List.dropWhile_append] at found
      split at found
      next =>
        cases quoted : inner.dropWhile fun char =>
            !(isModuleQuote char || char == '\n') with
        | nil =>
            rw [quoted] at found
            cases found
        | cons closing left =>
            simp only [quoted, List.isEmpty_cons, Bool.false_eq_true, if_false,
              List.cons_append] at found
            split at found
            next =>
              cases found
              have isSuffix := List.dropWhile_suffix (l := inner)
                fun char => !(isModuleQuote char || char == '\n')
              rw [quoted] at isSuffix
              exact ⟨left, ((List.suffix_cons closing left).trans isSuffix).trans
                (List.suffix_cons char inner), rfl⟩
            next => cases found
      next => cases found

theorem staysInside_statementEnd : StaysInside fun text => some (statementEnd text) := by
  intro inner rest after found
  cases found
  have isSuffix := List.dropWhile_suffix (l := inner) isInlineBlank
  rw [statementEnd, dropWhile_append_stops (stops_cons (by decide))]
  cases dropped : inner.dropWhile isInlineBlank with
  | nil => exact ⟨[], List.nil_suffix, rfl⟩
  | cons char left =>
      rw [dropped] at isSuffix
      rw [List.cons_append, dropChar?]
      split
      next => exact ⟨left, (List.suffix_cons char left).trans isSuffix, rfl⟩
      next => exact ⟨char :: left, isSuffix, rfl⟩

theorem staysInside_importWord? : StaysInside importWord? :=
  ((staysInside_dropWhile isInlineBlank (by decide)).bind
    (staysInside_dropWord? "import".toList (by decide))).bind staysInside_blanks?

theorem staysInside_importModule? : StaysInside importModule? := by
  intro inner rest after found
  rw [importModule?, Option.map_eq_bind] at found
  exact (staysInside_importWord?.bind staysInside_moduleName?).bind
    staysInside_statementEnd _ _ _ found

theorem staysInside_declaringWord? : StaysInside declaringWord? := by
  intro inner rest after found
  simp only [declaringWord?, Option.orElse_eq_orElse, Option.orElse_eq_or] at found
  exact (staysInside_dropWord? "const".toList (by decide)).or
    ((staysInside_dropWord? "let".toList (by decide)).or
      (staysInside_dropWord? "var".toList (by decide))) _ _ _ found

theorem staysInside_binding? : StaysInside binding? := by
  intro inner rest after found
  simp only [binding?] at found
  split at found
  next => exact staysInside_dropWhile isBindingChar (by decide) _ _ _ found
  next => cases found

theorem staysInside_requireCall? : StaysInside requireCall? := by
  have trimmed : StaysInside fun text => some (trimLeft text) :=
    staysInside_dropWhile isBlank (by decide)
  have spaced := staysInside_dropWhile isInlineBlank (by decide)
  intro inner rest after found
  simp only [requireCall?, Option.bind_eq_bind, Option.bind_eq_some_iff] at found
  obtain ⟨_, word, _, names, _, sign, _, call, _, name, _, bracket, last⟩ := found
  obtain ⟨first, isFirst, rfl⟩ := (spaced.bind staysInside_declaringWord?) _ _ _ word
  obtain ⟨second, isSecond, rfl⟩ := staysInside_binding? _ _ _ names
  obtain ⟨third, isThird, rfl⟩ := staysInside_dropChar? '=' (by decide) _ _ _ sign
  obtain ⟨fourth, isFourth, rfl⟩ :=
    (trimmed.bind (staysInside_dropWord? "require(".toList (by decide))) _ _ _ call
  obtain ⟨fifth, isFifth, rfl⟩ := (trimmed.bind staysInside_moduleName?) _ _ _ name
  obtain ⟨sixth, isSixth, rfl⟩ :=
    (trimmed.bind (staysInside_dropChar? ')' (by decide))) _ _ _ bracket
  obtain ⟨left, isLeft, rfl⟩ := staysInside_statementEnd _ _ _ last
  exact ⟨left, isLeft.trans (isSixth.trans (isFifth.trans (isFourth.trans
    (isThird.trans (isSecond.trans isFirst))))), rfl⟩

theorem calm_nil : Calm [] := by
  intro word leading after dropped
  simp only [leadingWords, List.mem_cons, List.not_mem_nil, or_false] at leading
  rcases leading with rfl | rfl | rfl | rfl <;> cases dropped

theorem not_mem_ending (ended : Bool) : '\n' ∉ ending ended := by
  cases ended <;> decide

theorem Gap.noFeed (gap : Gap) : '\n' ∉ gap.blanks :=
  fun member => (gap.inside _ member).2 rfl

theorem Module.noFeed (origin : Module) : '\n' ∉ origin.text := by
  have quote : origin.quote ≠ '\n' := by
    intro same
    have quotes := origin.quotes
    rw [same] at quotes
    cases quotes
  simp only [Module.text, List.mem_cons, List.mem_append, List.not_mem_nil,
    or_false, not_or]
  exact ⟨quote.symm, fun member => (origin.plain _ member).2 rfl, quote.symm⟩

namespace LeadingLine

variable {line : LeadingLine}

/-- The later lines of what an import from a module does not begin are calm,
unless they are in a block comment. -/
theorem calm_later (few : line.content.passes ≤ 2) (none : line.content.comment = [])
    (rest : List Char) : ∀ inner ∈ laterLines line.content.text,
      Calm (inner ++ '\n' :: rest) := by
  intro inner later
  obtain ⟨indentation, inline, content⟩ := line
  cases content with
  | blank => cases later
  | lineComment body within =>
      have noFeed : '\n' ∉ Leading.text (.lineComment body within) := by
        simpa [Leading.text, Leading.parts] using fun member => (within _ member).2 rfl
      rw [laterLines_eq_nil noFeed] at later
      cases later
  | blockComment body within =>
      subst none
      cases later
  | importModule gap origin ended =>
      have noFeed : '\n' ∉ Leading.text (.importModule gap origin ended) := by
        simp [Leading.text, Leading.parts, gap.noFeed, origin.noFeed, not_mem_ending]
      rw [laterLines_eq_nil noFeed] at later
      cases later
  | required word declares gap bindings nonempty names calm space origin ended =>
      have before : '\n' ∉ word.toList ++ gap.blanks := by
        simp only [declaringWords, List.mem_cons, List.not_mem_nil, or_false]
          at declares
        rcases declares with rfl | rfl | rfl <;> simp [gap.noFeed]
      have behind : '\n' ∉ '=' :: (space.blanks ++ ("require(".toList ++
          (origin.text ++ ')' :: ending ended))) := by
        simp [space.noFeed, origin.noFeed, not_mem_ending]
      have whole := Leading.text_required [] word declares gap bindings nonempty names
        calm space origin ended
      rw [List.append_nil, List.append_nil, ← List.append_assoc] at whole
      rw [whole] at later
      rcases mem_laterLines_append later with ⟨_, first, rfl⟩ | later
      · rw [laterLines_eq_nil before] at first
        cases first
      rcases mem_laterLines_append later with ⟨own, inside, rfl⟩ | last
      · rw [List.append_assoc]
        exact (calm own inside).append (by decide) (by decide) (by decide) _
      · rw [laterLines_eq_nil behind] at last
        cases last
  | importFrom gap bindings free bounded space origin ended => simp [Leading.passes] at few

/-- No import statement begins a comment. -/
theorem calm_comment (comment : line.content.passes = 0) (rest : List Char) :
    Calm (line.indentation ++ (line.content.text ++ '\n' :: rest)) := by
  have indented : ∀ sign others, isInlineBlank sign = false →
      (∀ word ∈ leadingWords, sign ∉ word.toList) →
        Calm (line.indentation ++ sign :: others) := by
    intro sign others noInline noLetter word leading after dropped
    rw [dropWhile_indentation, List.dropWhile_cons_of_neg (by simp [noInline]),
      ← List.nil_append (sign :: others)] at dropped
    obtain ⟨left, same, -⟩ := dropWord?_before (noLetter word leading) dropped
    have empty := List.append_eq_nil_iff.mp same.symm
    simp only [leadingWords, List.mem_cons, List.not_mem_nil, or_false] at leading
    rcases leading with rfl | rfl | rfl | rfl <;> cases empty.1
  obtain ⟨indentation, inline, content⟩ := line
  cases content with
  | blank | lineComment | blockComment =>
      exact indented _ _ (by decide) (by decide)
  | _ => cases comment

theorem importModule?_eq_none (few : line.content.passes ≤ 1) (rest : List Char) :
    importModule? (line.indentation ++ (line.content.text ++ '\n' :: rest)) =
      none := by
  obtain ⟨indentation, inline, content⟩ := line
  cases content with
  | blank | lineComment | blockComment =>
      exact sparesCalm_importModule? _ (calm_comment rfl rest)
  | required word declares gap bindings nonempty names calm space origin ended =>
      rw [Leading.text_required, importModule?, importWord?,
        dropWhile_indentation ⟨indentation, inline, .blank⟩]
      simp only [declaringWords, List.mem_cons, List.not_mem_nil, or_false] at declares
      rcases declares with rfl | rfl | rfl <;> rfl
  | importModule | importFrom => simp [Leading.passes] at few

end LeadingLine

end TwinSchema.Source
