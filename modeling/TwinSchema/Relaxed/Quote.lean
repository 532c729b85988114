/-!
# Single-quoted texts

Relaxed documents may quote a text by apostrophes. Such a text is written anew
with double quotes: a double quote in it gets a backslash, and an escaped
apostrophe loses its backslash. Everything else stays as it is.
-/

namespace TwinSchema.Relaxed

/-- Which kind of literal a scan for single quotes is in. -/
inductive Quoting where
  | outside
  | double
  | single
  deriving DecidableEq, Repr

/-- Turns single-quoted literals into double-quoted ones from a given place on.
-/
def requote : Quoting → List Char → List Char
  | _, [] => []
  | .outside, char :: rest =>
      if char = '"' then '"' :: requote .double rest
      else if char = '\'' then '"' :: requote .single rest
      else char :: requote .outside rest
  | .double, char :: rest =>
      if char = '\\' then
        match rest with
        | [] => ['\\']
        | escaped :: after => '\\' :: escaped :: requote .double after
      else if char = '"' then '"' :: requote .outside rest
      else char :: requote .double rest
  | .single, char :: rest =>
      if char = '\\' then
        match rest with
        | [] => ['\\']
        | '\'' :: after => '\'' :: requote .single after
        | escaped :: after => '\\' :: escaped :: requote .single after
      else if char = '\'' then '"' :: requote .outside rest
      else if char = '"' then '\\' :: '"' :: requote .single rest
      else char :: requote .single rest

/-- Turns every single-quoted literal into a double-quoted one. -/
def convertSingleQuotes (text : List Char) : List Char :=
  requote .outside text

section Steps

variable {char : Char} (rest : List Char)

theorem requote_double_plain (notEscape : char ≠ '\\') (notQuote : char ≠ '"') :
    requote .double (char :: rest) = char :: requote .double rest := by
  rw [requote.eq_def]
  simp [notEscape, notQuote]

theorem requote_double_escape :
    requote .double ('\\' :: char :: rest) =
      '\\' :: char :: requote .double rest :=
  rfl

theorem requote_double_close :
    requote .double ('"' :: rest) = '"' :: requote .outside rest := by
  rw [requote.eq_def]
  simp

end Steps

end TwinSchema.Relaxed
