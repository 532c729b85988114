import TwinSchema.Proofs.Relaxed.Comment
import TwinSchema.Proofs.Relaxed.Writing
import TwinSchema.Proofs.Text.Visible
import TwinSchema.Source.Declaration

/-!
# Source text without preamble

Text that holds neither imports nor comments nor declarations. Such a text is
its own cleaned form, and no declaration is found in it, so it is read as a bare
expression.
-/

namespace TwinSchema.Source

open Text

/-- Whether a text holds an equals sign, blanks, the letter z, blanks and a dot,
in this order. -/
def holdsAssignment : List Char → Bool
  | [] => false
  | char :: rest =>
      (char == '=' && beginsSchema (trimLeft rest)) || holdsAssignment rest

theorem holdsAssignment_of_suffix {suffix text : List Char}
    (isSuffix : suffix <:+ text) (holds : holdsAssignment suffix = true) :
    holdsAssignment text = true := by
  obtain ⟨before, rfl⟩ := isSuffix
  induction before with
  | nil => exact holds
  | cons char before ih => simp [holdsAssignment, ih]

/-- What remains of a text after a beginning without semicolons. -/
def Remains (text rest : List Char) : Prop :=
  ∃ before, ';' ∉ before ∧ text = before ++ rest

theorem Remains.refl (text : List Char) : Remains text text := ⟨[], by simp, rfl⟩

theorem Remains.trans {first second third : List Char}
    (left : Remains first second) (right : Remains second third) :
    Remains first third := by
  obtain ⟨before, noSign, rfl⟩ := left
  obtain ⟨between, noOther, rfl⟩ := right
  refine ⟨before ++ between, ?_, (List.append_assoc _ _ _).symm⟩
  rw [List.mem_append, not_or]
  exact ⟨noSign, noOther⟩

theorem Remains.suffix {text rest : List Char} (remains : Remains text rest) :
    rest <:+ text := by
  obtain ⟨before, -, rfl⟩ := remains
  exact List.suffix_append before rest

theorem remains_cons {char : Char} (different : char ≠ ';') (rest : List Char) :
    Remains (char :: rest) rest :=
  ⟨[char], by simpa using Ne.symm different, rfl⟩

/-- A run of characters other than semicolons. -/
theorem remains_dropWhile {test : Char → Bool} (stops : test ';' = false)
    (text : List Char) : Remains text (text.dropWhile test) := by
  refine ⟨text.takeWhile test, ?_, List.takeWhile_append_dropWhile.symm⟩
  intro member
  have inside := List.all_eq_true.mp (List.all_takeWhile (p := test)) _ member
  rw [inside] at stops
  cases stops

theorem remains_of_dropWord? {word text rest : List Char} (noSign : ';' ∉ word)
    (dropped : dropWord? word text = some rest) : Remains text rest :=
  ⟨word, noSign, dropWord?_eq_some dropped⟩

theorem remains_of_blanks? {text rest : List Char}
    (dropped : blanks? text = some rest) : Remains text rest := by
  cases text with
  | nil => cases dropped
  | cons char text =>
      simp only [blanks?] at dropped
      split at dropped
      next blank =>
        cases dropped
        refine (remains_cons ?_ text).trans (remains_dropWhile (by decide) text)
        rintro rfl
        revert blank
        decide
      next => cases dropped

theorem remains_of_name? {text name rest : List Char}
    (found : name? text = some (name, rest)) : Remains text rest := by
  cases text with
  | nil => cases found
  | cons char text =>
      simp only [name?] at found
      split at found
      next start =>
        cases found
        refine (remains_cons ?_ text).trans (remains_dropWhile (by decide) text)
        rintro rfl
        revert start
        decide
      next => cases found

theorem remains_of_annotation? {text rest : List Char}
    (found : annotation? text = some rest) : Remains text rest := by
  cases text with
  | nil => cases found; exact .refl _
  | cons char text =>
      simp only [annotation?] at found
      split at found
      next colon =>
        split at found
        next => cases found
        next =>
          cases found
          refine (remains_cons ?_ text).trans (remains_dropWhile (by decide) text)
          rintro rfl
          revert colon
          decide
      next => cases found; exact .refl _

theorem remains_of_declaringWord? {text rest : List Char}
    (found : declaringWord? text = some rest) : Remains text rest := by
  simp only [declaringWord?, Option.orElse_eq_orElse, Option.orElse_eq_or,
    Option.or_eq_some_iff] at found
  rcases found with found | ⟨-, found | ⟨-, found⟩⟩ <;>
    exact remains_of_dropWord? (by decide) found

/-- A text with an assignment of a schema before its first semicolon. -/
def Assigns (text : List Char) : Prop :=
  ∃ rest, Remains text ('=' :: rest) ∧ beginsSchema (trimLeft rest) = true

theorem Remains.assigns {text rest : List Char} (remains : Remains text rest)
    (assigns : Assigns rest) : Assigns text := by
  obtain ⟨schema, sign, begins⟩ := assigns
  exact ⟨schema, remains.trans sign, begins⟩

theorem Assigns.holdsAssignment {text : List Char} (assigns : Assigns text) :
    holdsAssignment text = true := by
  obtain ⟨schema, ⟨before, -, rfl⟩, begins⟩ := assigns
  exact holdsAssignment_of_suffix (List.suffix_append before _)
    (by simp [Source.holdsAssignment, begins])

theorem remains_of_rightSide? {text rest : List Char}
    (found : rightSide? text = some rest) :
    ∃ afterSign, Remains text ('=' :: afterSign) ∧ rest = trimLeft afterSign ∧
      beginsSchema rest = true := by
  simp only [rightSide?, Option.bind_eq_bind, Option.bind_eq_some_iff] at found
  obtain ⟨afterWord, word, afterBlanks, blanks, ⟨name, afterName⟩, named,
    afterType, annotated, afterSign, sign, begins⟩ := found
  have toName : Remains afterName afterType :=
    (remains_dropWhile (by decide) afterName).trans
      (remains_of_annotation? annotated)
  have toBlanks : Remains afterBlanks afterType :=
    (remains_of_name? named).trans toName
  have toWord : Remains afterWord afterType :=
    (remains_of_blanks? blanks).trans toBlanks
  refine ⟨afterSign, ?_, ?_⟩
  · rw [← dropChar?_eq_some sign]
    exact (remains_of_declaringWord? word).trans toWord
  · split at begins
    next schema => cases begins; exact ⟨rfl, schema⟩
    next => cases begins

/-- A declaration of a schema assigns one. -/
theorem assigns_of_rightSide? {text rest : List Char}
    (found : rightSide? text = some rest) : Assigns text := by
  obtain ⟨afterSign, remains, rfl, begins⟩ := remains_of_rightSide? found
  exact ⟨afterSign, remains, begins⟩

/-- So does an exported declaration. -/
theorem assigns_of_exportedRightSide? {text rest : List Char}
    (found : exportedRightSide? text = some rest) : Assigns text := by
  simp only [exportedRightSide?, Option.bind_eq_bind,
    Option.bind_eq_some_iff] at found
  obtain ⟨afterWord, word, afterBlanks, blanks, declared⟩ := found
  exact ((remains_of_dropWord? (by decide) word).trans
    (remains_of_blanks? blanks)).assigns (assigns_of_rightSide? declared)

theorem search?_eq_none {form : List Char → Option (List Char)}
    {text : List Char} (fails : ∀ suffix, suffix <:+ text → form suffix = none) :
    search? form text = none := by
  induction text with
  | nil => rfl
  | cons char text ih =>
      rw [search?, fails _ (List.suffix_refl _)]
      exact ih fun suffix isSuffix =>
        fails suffix (isSuffix.trans (List.suffix_cons _ _))

/-- A form that only texts with an assignment match. -/
def SeeksAssignment (form : List Char → Option (List Char)) : Prop :=
  ∀ {text rest}, form text = some rest → Assigns text

theorem SeeksAssignment.search?_eq_none {form : List Char → Option (List Char)}
    (seeks : SeeksAssignment form) {text : List Char}
    (free : holdsAssignment text = false) : search? form text = none := by
  apply Source.search?_eq_none
  intro suffix isSuffix
  cases found : form suffix with
  | none => rfl
  | some rest =>
      have holds := holdsAssignment_of_suffix isSuffix (seeks found).holdsAssignment
      rw [free] at holds
      cases holds

theorem declarations_eq_none {text : List Char}
    (free : holdsAssignment text = false) :
    exportedDeclaration? text = none ∧ declaration? text = none := by
  have exported : SeeksAssignment exportedRightSide? := assigns_of_exportedRightSide?
  have declared : SeeksAssignment rightSide? := assigns_of_rightSide?
  constructor
  · rw [exportedDeclaration?, exported.search?_eq_none free]
    rfl
  · rw [declaration?, declared.search?_eq_none free]
    rfl

/-- The words by which imports and bindings begin. -/
def leadingWords : List String := ["import", "const", "let", "var"]

/-- A line that does not begin with one of these words before a blank. -/
def Calm (text : List Char) : Prop :=
  ∀ word ∈ leadingWords, ∀ after,
    dropWord? word.toList (text.dropWhile isInlineBlank) = some after →
      blanks? after = none

/-- A form of statement that no calm line begins. -/
def SparesCalm (form : List Char → Option (List Char)) : Prop :=
  ∀ text, Calm text → form text = none

theorem importWord?_eq_none {text : List Char} (calm : Calm text) :
    importWord? text = none := by
  rw [importWord?]
  cases word : dropWord? "import".toList (text.dropWhile isInlineBlank) with
  | none => rfl
  | some after => exact calm "import" (by simp [leadingWords]) after word

theorem sparesCalm_importFrom? : SparesCalm importFrom? := fun text calm => by
  rw [importFrom?, importWord?_eq_none calm]
  rfl

theorem sparesCalm_importModule? : SparesCalm importModule? := fun text calm => by
  rw [importModule?, importWord?_eq_none calm]
  rfl

/-- Names are bound only after a blank. -/
theorem binding?_eq_none {text : List Char} (noBlank : blanks? text = none) :
    binding? text = none := by
  have noHead : (text.takeWhile isBindingChar).head?.any isBlank = false := by
    cases text with
    | nil => rfl
    | cons char text =>
        have visible : isBlank char = false := by
          cases blank : isBlank char with
          | false => rfl
          | true => simp [blanks?, blank] at noBlank
        rw [List.takeWhile_cons]
        split <;> simp [visible]
  simp [binding?, noHead]

theorem sparesCalm_requireCall? : SparesCalm requireCall? := by
  intro text calm
  have bound : ∀ after,
      declaringWord? (text.dropWhile isInlineBlank) = some after →
        binding? after = none := by
    intro after word
    apply binding?_eq_none
    simp only [declaringWord?, Option.orElse_eq_orElse, Option.orElse_eq_or,
      Option.or_eq_some_iff] at word
    rcases word with word | ⟨-, word | ⟨-, word⟩⟩
    · exact calm "const" (by simp [leadingWords]) after word
    · exact calm "let" (by simp [leadingWords]) after word
    · exact calm "var" (by simp [leadingWords]) after word
  simp only [requireCall?, Option.bind_eq_bind]
  cases word : declaringWord? (text.dropWhile isInlineBlank) with
  | none => rfl
  | some after => rw [Option.bind_some, bound after word, Option.bind_none]

/-! ## Tame text -/

/-- Text with nothing to remove: outside of literals there are no quotes,
slashes and equals signs, every line begins calmly, and no literal holds an
assignment. -/
inductive Tame : List Char → Prop where
  | nil : Tame []
  | char {char : Char} {rest : List Char} (noQuote : char ∉ sourceQuotes)
      (noSlash : char ≠ '/') (noSign : char ≠ '=') (noBreak : char ≠ '\n')
      (others : Tame rest) : Tame (char :: rest)
  | lineBreak {rest : List Char} (calm : Calm rest) (others : Tame rest) :
      Tame ('\n' :: rest)
  | literal {body rest : List Char} (inside : LiteralBody '"' body)
      (noBreak : '\n' ∉ body) (free : holdsAssignment body = false)
      (others : Tame rest) : Tame ('"' :: (body ++ '"' :: rest))

/-- A property of texts that lasts when a part of tame text is put in front. -/
structure Carries (property : List Char → Prop) : Prop where
  char {char : Char} {rest : List Char} (noQuote : char ∉ sourceQuotes)
    (noSlash : char ≠ '/') (noSign : char ≠ '=') (noBreak : char ≠ '\n')
    (others : property rest) : property (char :: rest)
  lineBreak {rest : List Char} (calm : Calm rest) (others : property rest) :
    property ('\n' :: rest)
  literal {body rest : List Char} (inside : LiteralBody '"' body)
    (noBreak : '\n' ∉ body) (free : holdsAssignment body = false)
    (others : property rest) : property ('"' :: (body ++ '"' :: rest))

theorem carries_tame : Carries Tame := ⟨.char, .lineBreak, .literal⟩

/-- A lasting property of the empty text holds of every tame text. -/
theorem Carries.holds {property : List Char → Prop} (carries : Carries property)
    (start : property []) {text : List Char} (tame : Tame text) :
    property text := by
  induction tame with
  | nil => exact start
  | char noQuote noSlash noSign noBreak _ ih =>
      exact carries.char noQuote noSlash noSign noBreak ih
  | lineBreak calm _ ih => exact carries.lineBreak calm ih
  | literal inside noBreak free _ ih =>
      exact carries.literal inside noBreak free ih

theorem eraseFrom_line (form : List Char → Option (List Char))
    {line : List Char} (noBreak : '\n' ∉ line) (rest : List Char) :
    eraseFrom form 0 false (line ++ rest) = line ++ eraseFrom form 0 false rest := by
  induction line with
  | nil => rfl
  | cons char line ih =>
      rw [List.mem_cons, not_or] at noBreak
      have stays : (char == '\n') = false := by simpa using Ne.symm noBreak.1
      rw [List.cons_append, eraseFrom]
      simp only [Bool.false_eq_true, if_false, stays]
      rw [ih noBreak.2, List.cons_append]

/-- Where no statement begins, the beginning of a line is like any other place. -/
theorem eraseFrom_lineStart {form : List Char → Option (List Char)}
    {text : List Char} (fails : form text = none) :
    eraseFrom form 0 true text = eraseFrom form 0 false text := by
  cases text <;> simp [eraseFrom, fails]

theorem carries_eraseFrom {form : List Char → Option (List Char)}
    (spares : SparesCalm form) :
    Carries fun text => eraseFrom form 0 false text = text where
  char {char rest} noQuote noSlash noSign noBreak others := by
    have alone : '\n' ∉ [char] := by simpa using Ne.symm noBreak
    have line := eraseFrom_line form alone rest
    rwa [others] at line
  lineBreak {rest} calm others := by
    have broken : eraseFrom form 0 false ('\n' :: rest) =
        '\n' :: eraseFrom form 0 true rest := rfl
    rw [broken, eraseFrom_lineStart (spares rest calm), others]
  literal {body rest} inside noBreak free others := by
    have whole : '\n' ∉ '"' :: (body ++ ['"']) := by simpa using noBreak
    have line := eraseFrom_line form whole rest
    rw [others] at line
    simpa using line

theorem carries_stripFrom : Carries fun text =>
    Relaxed.stripFrom sourceQuotes (.text .code) text = text where
  char noQuote noSlash _ _ others := by
    rw [Relaxed.stripFrom_char noQuote noSlash, others]
  lineBreak _ others := by
    rw [Relaxed.stripFrom_char (by decide) (by decide), others]
  literal inside _ _ others := by
    rw [Relaxed.stripFrom_literal inside (by decide) (by decide), others]

/-- A visible character other than the letter z and the dot ends the beginning of
a schema. -/
theorem beginsSchema_append {char : Char} (visible : isBlank char = false)
    (apart : char ∉ ['z', '.']) (text rest : List Char) :
    beginsSchema (trimLeft (text ++ char :: rest)) =
      beginsSchema (trimLeft text) := by
  simp only [List.mem_cons, List.not_mem_nil, or_false, not_or] at apart
  rw [trimLeft_append_visible visible]
  cases trimLeft text with
  | nil => simp [beginsSchema, dropChar?, apart]
  | cons first text =>
      by_cases letter : first = 'z'
      · simp only [List.cons_append, beginsSchema, dropChar?, letter, if_true]
        rw [trimLeft_append_visible visible]
        cases trimLeft text with
        | nil => simp [apart]
        | cons next text => by_cases dot : next = '.' <;> simp [dot]
      · simp [beginsSchema, dropChar?, letter]

namespace Tame

theorem eraseFrom_eq {form : List Char → Option (List Char)}
    (spares : SparesCalm form) {text : List Char} (tame : Tame text)
    (calm : Calm text) : eraseFrom form 0 true text = text := by
  rw [eraseFrom_lineStart (spares text calm)]
  exact (carries_eraseFrom spares).holds rfl tame

theorem stripComments_eq {text : List Char} (tame : Tame text) :
    Relaxed.stripComments sourceQuotes text = text :=
  carries_stripFrom.holds rfl tame

theorem clean_eq {text : List Char} (tame : Tame text) (calm : Calm text) :
    clean text = text := by
  have spared : ∀ form, SparesCalm form → eraseStatements form text = text :=
    fun form spares => eraseFrom_eq spares tame calm
  rw [clean, spared _ sparesCalm_importFrom?, spared _ sparesCalm_importModule?,
    spared _ sparesCalm_requireCall?, stripComments_eq tame]

theorem holdsAssignment_eq {text : List Char} (tame : Tame text) :
    holdsAssignment text = false := by
  induction tame with
  | nil => rfl
  | char _ _ noSign _ _ ih => simp [holdsAssignment, noSign, ih]
  | lineBreak _ _ ih => simp [holdsAssignment, ih]
  | @literal body rest inside noBreak free others ih =>
      have within : ∀ body : List Char, holdsAssignment body = false →
          holdsAssignment (body ++ '"' :: rest) = false := by
        intro body free
        induction body with
        | nil => simp [holdsAssignment, ih]
        | cons char body ihBody =>
            simp only [holdsAssignment, Bool.or_eq_false_iff] at free
            rw [List.cons_append, holdsAssignment,
              beginsSchema_append (by decide) (by decide), ihBody free.2, free.1,
              Bool.or_false]
      simp [holdsAssignment, within body free]

end Tame

section Written

open Json (escapeChar writeText)

/-- Where a written text begins with a visible character that is no backslash,
the text itself does. -/
theorem dropChar?_escaped {expected : Char} (notEscape : expected ≠ '\\')
    {text after : List Char}
    (dropped : dropChar? expected (trimLeft (text.flatMap escapeChar)) =
      some after) :
    ∃ rest, after = rest.flatMap escapeChar ∧
      dropChar? expected (trimLeft text) = some rest := by
  induction text with
  | nil => cases dropped
  | cons char text ih =>
      rw [List.flatMap_cons] at dropped
      rcases Relaxed.escapeChar_cases char with ⟨same, -⟩ | ⟨rest, same, -, -⟩
      · rw [same, List.singleton_append, trimLeft, List.dropWhile_cons] at dropped
        rw [trimLeft, List.dropWhile_cons]
        cases blank : isBlank char with
        | true =>
            simp only [blank, if_true] at dropped ⊢
            exact ih dropped
        | false =>
            simp only [blank, Bool.false_eq_true, if_false, dropChar?] at dropped ⊢
            split at dropped
            next equal => exact ⟨text, by simpa using dropped.symm, if_pos equal⟩
            next => cases dropped
      · have visible : isBlank '\\' = false := by decide
        rw [same, List.cons_append, trimLeft,
          List.dropWhile_cons_of_neg (by simp [visible]), dropChar?,
          if_neg (Ne.symm notEscape)] at dropped
        cases dropped

theorem beginsSchema_escaped {text : List Char}
    (begins : beginsSchema (trimLeft (text.flatMap escapeChar)) = true) :
    beginsSchema (trimLeft text) = true := by
  rw [beginsSchema] at begins ⊢
  cases letter : dropChar? 'z' (trimLeft (text.flatMap escapeChar)) with
  | none => simp [letter] at begins
  | some after =>
      obtain ⟨rest, rfl, first⟩ := dropChar?_escaped (by decide) letter
      simp only [letter] at begins
      obtain ⟨last, dot⟩ := Option.isSome_iff_exists.mp begins
      obtain ⟨others, -, second⟩ := dropChar?_escaped (by decide) dot
      simp [first, second]

theorem holdsAssignment_escaped {text : List Char}
    (free : holdsAssignment text = false) :
    holdsAssignment (text.flatMap escapeChar) = false := by
  have skipped : ∀ {before : List Char} (rest : List Char), '=' ∉ before →
      holdsAssignment (before ++ rest) = holdsAssignment rest := by
    intro before rest noSign
    induction before with
    | nil => rfl
    | cons char before ih =>
        rw [List.mem_cons, not_or] at noSign
        simp [holdsAssignment, Ne.symm noSign.1, ih noSign.2]
  induction text with
  | nil => rfl
  | cons char text ih =>
      simp only [holdsAssignment, Bool.or_eq_false_iff] at free
      rw [List.flatMap_cons]
      rcases Relaxed.escapeChar_cases char with ⟨same, -⟩ | ⟨rest, same, noSign, -⟩
      · rw [same, List.singleton_append, holdsAssignment, ih free.2, Bool.or_false,
          Bool.and_eq_false_iff]
        by_cases sign : char = '='
        · refine .inr (Bool.eq_false_iff.mpr ?_)
          intro begins
          simp [sign, beginsSchema_escaped begins] at free
        · exact .inl (by simpa using sign)
      · rw [same, skipped _ (by simpa using noSign)]
        exact ih free.2

/-- A lasting property lasts when a written text without an assignment is put in
front. -/
theorem Carries.writeText {property : List Char → Prop}
    (carries : Carries property) {text : String}
    (free : holdsAssignment text.toList = false) {rest : List Char}
    (others : property rest) : property (writeText text ++ rest) := by
  have literal := carries.literal (Relaxed.literalBody_escaped text)
    (Relaxed.notMem_escaped text.toList) (holdsAssignment_escaped free) others
  simpa [Json.writeText] using literal

end Written

end TwinSchema.Source
