import TwinSchema.Relaxed.Comment
import TwinSchema.Text.Word

/-!
# Preambles of source text

Import statements at the beginning of a line, whatever their form, are removed
before a schema is looked for, and so are comments.
-/

namespace TwinSchema.Source

open Text

/-- The blanks that may stand before a statement on its line. -/
def isInlineBlank (char : Char) : Bool := char == ' ' || char == '\t'

/-- The quotes of a module name. -/
def isModuleQuote (char : Char) : Bool := char == '"' || char == '\''

/-- The text after the name of a module between quotes, which need not match. -/
def moduleName? : List Char → Option (List Char)
  | [] => none
  | char :: rest =>
      if isModuleQuote char then
        match rest.dropWhile fun char =>
            !(isModuleQuote char || char == '\n') with
        | [] => none
        | closing :: after => if isModuleQuote closing then some after else none
      else none

/-- The text after the blanks and the semicolon that end a statement. -/
def statementEnd (text : List Char) : List Char :=
  let rest := text.dropWhile isInlineBlank
  (dropChar? ';' rest).getD rest

/-- The text after the word `import` and the blanks behind it. -/
def importWord? (text : List Char) : Option (List Char) :=
  (dropWord? "import".toList (text.dropWhile isInlineBlank)).bind blanks?

/-- The text after the first clause that names a module to import from, where no
semicolon stands before it. -/
def fromClause? (previous : Char) : List Char → Option (List Char)
  | [] => none
  | char :: rest =>
      let here :=
        if isWordChar previous then none
        else ((dropWord? "from".toList (char :: rest)).bind blanks?).bind
          moduleName?
      match here with
      | some after => some after
      | none => if char = ';' then none else fromClause? char rest

/-- An import of names from a module. -/
def importFrom? (text : List Char) : Option (List Char) :=
  (((importWord? text).bind (fromClause? ' '))).map statementEnd

def importModule? (text : List Char) : Option (List Char) :=
  ((importWord? text).bind moduleName?).map statementEnd

/-- The text after a word that declares a name. -/
def declaringWord? (text : List Char) : Option (List Char) :=
  dropWord? "const".toList text <|> dropWord? "let".toList text <|>
    dropWord? "var".toList text

/-- The characters of the names that a required module is bound to. -/
def isBindingChar (char : Char) : Bool :=
  isWordChar char || char == '$' || char == '{' || char == '}' ||
    char == ',' || isBlank char

/-- The text after the names that a required module is bound to, which are
separated from the word before them by a blank. -/
def binding? (text : List Char) : Option (List Char) :=
  let names := text.takeWhile isBindingChar
  if names.head?.any isBlank && 2 ≤ names.length then
    some (text.dropWhile isBindingChar)
  else none

/-- A module required by a call and bound to names. -/
def requireCall? (text : List Char) : Option (List Char) := do
  let rest ← declaringWord? (text.dropWhile isInlineBlank)
  let rest ← binding? rest
  let rest ← dropChar? '=' rest
  let rest ← dropWord? "require(".toList (trimLeft rest)
  let rest ← moduleName? (trimLeft rest)
  let rest ← dropChar? ')' (trimLeft rest)
  return statementEnd rest

/-- Erases every statement of one form that begins a line, where `skipped`
characters of the current statement are still to be erased. -/
def eraseFrom (form : List Char → Option (List Char)) :
    (skipped : Nat) → (startsLine : Bool) → List Char → List Char
  | _, _, [] => []
  | skipped + 1, _, char :: rest => eraseFrom form skipped (char == '\n') rest
  | 0, startsLine, char :: rest =>
      match if startsLine then form (char :: rest) else none with
      | some after =>
          eraseFrom form (rest.length - after.length) false rest
      | none => char :: eraseFrom form 0 (char == '\n') rest

/-- Erases every statement of one form that begins a line. -/
def eraseStatements (form : List Char → Option (List Char))
    (text : List Char) : List Char :=
  eraseFrom form 0 true text

/-- Source text without its imports and comments. -/
def clean (text : List Char) : List Char :=
  Relaxed.stripComments sourceQuotes
    (eraseStatements requireCall?
      (eraseStatements importModule? (eraseStatements importFrom? text)))

end TwinSchema.Source
