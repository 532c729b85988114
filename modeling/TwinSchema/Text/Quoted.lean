import TwinSchema.Text.Printable

/-!
# Displayed texts

How a text is shown inside a message: between quotes, with everything that could
not be told apart on a screen written as an escape.
-/

namespace TwinSchema.Text

/-- A number in lower-case hexadecimal, padded with zeros to a width. -/
def hexadecimal (width number : Nat) : List Char :=
  let digits := Nat.toDigits 16 number
  List.replicate (width - digits.length) '0' ++ digits

/-- A character inside a displayed text that is delimited by `quote`. -/
def displayChar (quote char : Char) : List Char :=
  if char == quote || char == '\\' then ['\\', char]
  else if char == '\n' then ['\\', 'n']
  else if char == '\r' then ['\\', 'r']
  else if char == '\t' then ['\\', 't']
  else if isPrintable char then [char]
  else
    let code := char.toNat
    if code < 0x100 then '\\' :: 'x' :: hexadecimal 2 code
    else if code < 0x10000 then '\\' :: 'u' :: hexadecimal 4 code
    else '\\' :: 'U' :: hexadecimal 8 code

/-- A text is displayed between single quotes, unless it holds a single quote
and no double one. -/
def display (text : String) : String :=
  let chars := text.toList
  let quote := if '\'' ∈ chars && '"' ∉ chars then '"' else '\''
  String.ofList (quote :: chars.flatMap (displayChar quote) ++ [quote])

end TwinSchema.Text
