import TwinSchema.Source.Bracket
import TwinSchema.Text.Word

/-!
# Chains of calls

An expression of source text is a chain: a constructor call such as
`z.string()`, or the name of another schema, followed by links such as
`.optional()`. A chain is split here into its calls; what stands between their
brackets is left as text.
-/

namespace TwinSchema.Source

open Text

/-- A call at the end of a chain: its name and the text of its arguments. -/
structure Link where
  name : String
  arguments : List Char
  deriving DecidableEq, Repr

/-- A constructor call: its name and the text of its arguments. -/
structure Call where
  constructor : String
  arguments : List Char
  deriving DecidableEq, Repr

/-- An expression in parts. A chain without a constructor call begins with a
reference to another schema. -/
structure Chain where
  call : Option Call
  links : List Link
  deriving DecidableEq, Repr

/-- The name of a call up to its opening bracket, and the text after it. -/
def callName? (text : List Char) : Option (List Char × List Char) :=
  match name? (trimLeft text) with
  | none => none
  | some (name, rest) =>
      match dropChar? '(' (trimLeft rest) with
      | none => none
      | some arguments => some (name, arguments)

/-- A call after a dot: its name, and the text after its opening bracket. -/
def linkHead? (text : List Char) : Option (List Char × List Char) :=
  match dropChar? '.' (trimLeft text) with
  | none => none
  | some rest => callName? rest

/-- A constructor call: its name, and the text after its opening bracket. -/
def constructorHead? (text : List Char) : Option (List Char × List Char) :=
  match dropChar? 'z' (trimLeft text) with
  | none => none
  | some rest => linkHead? rest

/-- The text after a dot and a name, without a call. -/
def segment? (text : List Char) : Option (List Char) :=
  match dropChar? '.' (trimLeft text) with
  | none => none
  | some rest => (name? (trimLeft rest)).map Prod.snd

/-- Whether a path may end before a text: a dot follows, or nothing at all. -/
def pathMayEnd (text : List Char) : Bool :=
  match firstVisible text with
  | none => true
  | some char => char == '.'

theorem length_callName? {text name rest : List Char}
    (found : callName? text = some (name, rest)) : rest.length < text.length := by
  unfold callName? at found
  split at found
  · simp at found
  · rename_i word after named
    split at found
    · simp at found
    · rename_i arguments opened
      simp only [Option.some.injEq, Prod.mk.injEq] at found
      have := length_name? named
      have := length_dropChar? opened
      have := length_trimLeft text
      have := length_trimLeft after
      rw [← found.2]
      omega

theorem length_linkHead? {text name rest : List Char}
    (found : linkHead? text = some (name, rest)) : rest.length < text.length := by
  unfold linkHead? at found
  split at found
  · simp at found
  · rename_i after dotted
    have := length_dropChar? dotted
    have := length_trimLeft text
    have := length_callName? found
    omega

theorem length_constructorHead? {text name rest : List Char}
    (found : constructorHead? text = some (name, rest)) :
    rest.length < text.length := by
  unfold constructorHead? at found
  split at found
  · simp at found
  · rename_i after begun
    have := length_dropChar? begun
    have := length_trimLeft text
    have := length_linkHead? found
    omega

theorem length_segment? {text rest : List Char}
    (found : segment? text = some rest) : rest.length < text.length := by
  unfold segment? at found
  split at found
  · simp at found
  · rename_i after dotted
    simp only [Option.map_eq_some_iff] at found
    obtain ⟨⟨word, tail⟩, named, same⟩ := found
    have := length_dropChar? dotted
    have := length_trimLeft text
    have := length_name? named
    have := length_trimLeft after
    simp only at same
    rw [← same]
    omega

/-- The links that a text begins with, one after the other. There are none at
all if one of them never closes. -/
def links? (text : List Char) : Option (List Link) :=
  match found : linkHead? text with
  | none => some []
  | some (name, opened) =>
      match closed : splitClosing .code 0 opened with
      | none => none
      | some (arguments, rest) =>
          have : rest.length < text.length := by
            have := length_linkHead? found
            have := length_splitClosing _ _ _ closed
            omega
          match links? rest with
          | none => none
          | some others => some (⟨String.ofList name, arguments⟩ :: others)
termination_by text.length

/-- The end of a path of names, where `before` is the text after the last name
but one. A path that cannot end after its last name ends before it. -/
def pathEnd? (before : Option (List Char)) (text : List Char) :
    Option (List Char) :=
  match found : segment? text with
  | some rest =>
      have : rest.length < text.length := length_segment? found
      pathEnd? (some text) rest
  | none => if pathMayEnd text then some text else before
termination_by text.length

/-- The text after a reference to another schema. -/
def reference? (text : List Char) : Option (List Char) :=
  match name? (trimLeft text) with
  | none => none
  | some (_, rest) => pathEnd? none rest

/-- Splits an expression into its calls. -/
def splitChain (text : List Char) : Option Chain :=
  match constructorHead? text with
  | some (name, opened) =>
      match splitClosing .code 0 opened with
      | none => none
      | some (arguments, rest) =>
          (links? rest).map fun links =>
            ⟨some ⟨String.ofList name, arguments⟩, links⟩
  | none =>
      match reference? text with
      | none => none
      | some rest => (links? rest).map fun links => ⟨none, links⟩

/-- The arguments of a constructor are shorter than the expression. -/
theorem length_splitChain {text : List Char} {chain : Chain} {call : Call}
    (split : splitChain text = some chain) (called : chain.call = some call) :
    call.arguments.length < text.length := by
  unfold splitChain at split
  split at split
  · rename_i name opened found
    split at split
    · simp at split
    · rename_i arguments rest closed
      simp only [Option.map_eq_some_iff] at split
      obtain ⟨links, -, rfl⟩ := split
      simp only [Option.some.injEq] at called
      have := length_constructorHead? found
      have := length_splitClosing _ _ _ closed
      rw [← called]
      simp only
      omega
  · split at split
    · simp at split
    · simp only [Option.map_eq_some_iff] at split
      obtain ⟨links, -, rfl⟩ := split
      simp at called

/-- The links of an expression, as far as it can be split at all. -/
def trailingLinks (text : List Char) : List Link :=
  match splitChain text with
  | none => []
  | some chain => chain.links

end TwinSchema.Source
