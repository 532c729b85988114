import TwinSchema.Proofs.Source.Tame
import TwinSchema.Source.Reader

/-!
# Parts of source text

Reading source text comes from one expression to the ones inside it, which are
shorter.
-/

namespace TwinSchema.Source

open Text

/-- The constructor call that an expression begins with. -/
def call? (expression : List Char) : Option Call :=
  (splitChain expression).bind Chain.call

/-- The pieces between the brackets around an argument. -/
def piecesWithin (opening closing : Char) (arguments : List Char) :
    List (List Char) :=
  match unwrap? opening closing (trim arguments) with
  | some body => splitTopLevel body
  | none => []

/-- The properties of the object that an expression constructs: their keys, and
the texts of their schemas. -/
def propertiesOf (expression : List Char) : List (Key × List Char) :=
  match call? expression with
  | some call =>
      if constructorKind? call.constructor = some .object then
        (piecesWithin '{' '}' call.arguments).filterMap property?
      else []
  | none => []

/-- The expressions directly inside an expression: items, members, and the
schemas of properties. -/
def innerExpressions (expression : List Char) : List (List Char) :=
  match call? expression with
  | some call =>
      match constructorKind? call.constructor with
      | some .array => [call.arguments]
      | some .union => piecesWithin '[' ']' call.arguments
      | _ => (propertiesOf expression).map Prod.snd
  | none => []

/-- The argument of a link that is decoded as a description. Text between
backquotes is taken as it stands. -/
def describing? (link : Link) : Option (List Char) :=
  if (link.name = "describe" ∨ link.name = "description") ∧
      templateText? (trim link.arguments) = none then
    some (trim link.arguments)
  else none

/-- The argument of an expression's constructor, where that takes data. -/
def dataArgument? (expression : List Char) : Option (List Char) :=
  match call? expression with
  | some call =>
      if constructorKind? call.constructor = some .literal ∨
          constructorKind? call.constructor = some .enumeration then
        some call.arguments
      else none
  | none => none

/-- The arguments of an expression that are decoded: those of literals and
enumerations, and those of descriptions. -/
def dataArguments (expression : List Char) : List (List Char) :=
  (dataArgument? expression).toList ++
    (trailingLinks expression).filterMap describing?

/-- What the strategies find in a text that has been cleaned. -/
def strategies (text : List Char) : List (Option (List Char)) :=
  [exportedDeclaration? text, declaration? text, bareExpression? text]

/-- The expressions that may be read for a text that has been cleaned: the ones
that the strategies find, and with an expression the ones inside it. -/
inductive Part (text : List Char) : List Char → Prop where
  | whole {expression : List Char} (found : some expression ∈ strategies text) :
      Part text expression
  | inner {outer expression : List Char} (part : Part text outer)
      (inside : expression ∈ innerExpressions outer) : Part text expression

/-- What reading comes to is found in every list that holds the expressions of
the strategies and, with an expression, the ones inside it. -/
theorem Part.mem_of_closed {text expression : List Char} {known : List (List Char)}
    (part : Part text expression)
    (found : ∀ candidate ∈ strategies text, ∀ expression ∈ candidate, expression ∈ known)
    (closed : ∀ outer ∈ known, ∀ inner ∈ innerExpressions outer, inner ∈ known) :
    expression ∈ known := by
  induction part with
  | whole here => exact found _ here _ rfl
  | inner _ inside ih => exact closed _ ih _ inside

theorem length_of_mem_piecesWithin {opening closing : Char}
    {arguments piece : List Char}
    (inside : piece ∈ piecesWithin opening closing arguments) :
    piece.length < arguments.length := by
  rw [piecesWithin] at inside
  split at inside
  next wrapped => exact length_of_mem_pieces wrapped piece inside
  next => cases inside

theorem length_of_mem_innerExpressions {inner expression : List Char}
    (inside : inner ∈ innerExpressions expression) :
    inner.length < expression.length := by
  rw [innerExpressions] at inside
  split at inside
  next call begun =>
    obtain ⟨chain, split, called⟩ := Option.bind_eq_some_iff.mp begun
    refine Nat.lt_of_le_of_lt ?_ (length_splitChain split called)
    split at inside
    next => rw [List.mem_singleton.mp inside]
    next => exact Nat.le_of_lt (length_of_mem_piecesWithin inside)
    next =>
      obtain ⟨property, member, rfl⟩ := List.mem_map.mp inside
      simp only [propertiesOf, begun] at member
      split at member
      next =>
        obtain ⟨entry, within, found⟩ := List.mem_filterMap.mp member
        exact Nat.le_of_lt
          (Nat.lt_trans (length_property? found) (length_of_mem_piecesWithin within))
      next => cases member
  next => cases inside

end TwinSchema.Source
