import TwinSchema.Text.Alphanumeric
import TwinSchema.Text.Blank

/-!
# Words and identifiers

The characters that make up words and names, and the identifiers that may stand
as a property key without quotes.
-/

namespace TwinSchema.Text

/-- Word characters: letters, numbers and the underscore. -/
def isWordChar (char : Char) : Bool :=
  char == '_' || isAlphanumeric char

/-- The characters an identifier may begin with. -/
def isNameStart (char : Char) : Bool :=
  char.isAlpha || char == '_' || char == '$'

/-- The characters an identifier may go on with. -/
def isNamePart (char : Char) : Bool :=
  char == '$' || isWordChar char

/-- The characters of a bare key that directly follows `{` or `,`. -/
def isKeyChar (char : Char) : Bool :=
  char.isAlphanum || char == '_' || char == '$'

/-- Splits an identifier off the front of a text, as long as possible. -/
def name? : List Char → Option (List Char × List Char)
  | [] => none
  | char :: rest =>
      if isNameStart char then
        some (char :: rest.takeWhile isNamePart, rest.dropWhile isNamePart)
      else none

/-- Whether a text goes on with characters of an identifier up to its end, where
one final line feed is let through. -/
def namePartsToEnd : List Char → Bool
  | [] => true
  | ['\n'] => true
  | char :: rest => isNamePart char && namePartsToEnd rest

/-- Whether a name can be written as a bare property key. -/
def isIdentifier (name : String) : Bool :=
  match name.toList with
  | [] => false
  | char :: rest => isNameStart char && namePartsToEnd rest

theorem length_name? {text name rest : List Char}
    (found : name? text = some (name, rest)) : rest.length < text.length := by
  cases text with
  | nil => simp [name?] at found
  | cons char tail =>
      simp only [name?] at found
      split at found
      · simp only [Option.some.injEq, Prod.mk.injEq] at found
        have bound := (List.dropWhile_suffix (l := tail) isNamePart).length_le
        simp only [← found.2, List.length_cons]
        omega
      · simp at found

end TwinSchema.Text
