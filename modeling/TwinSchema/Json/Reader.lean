import TwinSchema.Fields
import TwinSchema.Json.Token

/-!
# Reading strict JSON

A value is read from its tokens from left to right. The state keeps the lists
and records that are still open; each token either moves to the next state or is
a mistake, so the first mistake in the text is the one reported. Values may be
nested to any depth.
-/

namespace TwinSchema.Json

/-- A list or record that is still open: the items so far, last one first, or
the fields so far and the name whose value is due. -/
inductive Frame where
  | list (items : List Value)
  | record (fields : List (String × Value)) (name : String)
  deriving BEq, Repr

/-- What has been read and what is due next, inside the open frames. -/
inductive State where
  | valueDue (frames : List Frame)
  | itemOrEnd (frames : List Frame)
  | nameOrEnd (frames : List Frame)
  | nameDue (fields : List (String × Value)) (frames : List Frame)
  | colonDue (fields : List (String × Value)) (name : String)
      (frames : List Frame)
  | complete (value : Value) (frames : List Frame)
  deriving BEq, Repr

/-- The mistake of a token that is not due. -/
def State.complaint : State → Reason
  | .valueDue _ => .valueExpected
  | .itemOrEnd _ => .valueExpected
  | .nameOrEnd _ => .nameExpected
  | .nameDue _ _ => .nameExpected
  | .colonDue _ _ _ => .colonExpected
  | .complete _ [] => .trailingData
  | .complete _ (_ :: _) => .commaExpected

/-- Why reading stopped. -/
inductive Obstacle where
  | mistake (mistake : Mistake)
  | longInteger (digits : Nat)
  deriving DecidableEq, Repr

/-- The state after a token where a value is due. -/
def beginValue (frames : List Frame) (lexeme : Lexeme) :
    Except Obstacle State :=
  match lexeme.token with
  | .openRecord => .ok (.nameOrEnd frames)
  | .openList => .ok (.itemOrEnd frames)
  | .scalar value => .ok (.complete (.scalar value) frames)
  | .text value => .ok (.complete (.text value) frames)
  | .longInteger digits => .error (.longInteger digits)
  | .brokenText mistake => .error (.mistake mistake)
  | _ => .error (.mistake ⟨.valueExpected, lexeme.remaining⟩)

/-- The state after a token where the name of a field is due. -/
def beginField (fields : List (String × Value)) (frames : List Frame)
    (lexeme : Lexeme) : Except Obstacle State :=
  match lexeme.token with
  | .text name => .ok (.colonDue fields name frames)
  | .brokenText mistake => .error (.mistake mistake)
  | _ => .error (.mistake ⟨.nameExpected, lexeme.remaining⟩)

/-- The state after one more token. -/
def State.step (state : State) (lexeme : Lexeme) : Except Obstacle State :=
  match state, lexeme.token with
  | .valueDue frames, _ => beginValue frames lexeme
  | .itemOrEnd frames, .closeList => .ok (.complete (.list []) frames)
  | .itemOrEnd frames, _ => beginValue (.list [] :: frames) lexeme
  | .nameOrEnd frames, .closeRecord => .ok (.complete (.record []) frames)
  | .nameOrEnd frames, _ => beginField [] frames lexeme
  | .nameDue fields frames, _ => beginField fields frames lexeme
  | .colonDue fields name frames, .colon =>
      .ok (.valueDue (.record fields name :: frames))
  | .complete value (.list items :: frames), .comma =>
      .ok (.valueDue (.list (value :: items) :: frames))
  | .complete value (.list items :: frames), .closeList =>
      .ok (.complete (.list (value :: items).reverse) frames)
  | .complete value (.record fields name :: frames), .comma =>
      .ok (.nameDue (setField name value fields) frames)
  | .complete value (.record fields name :: frames), .closeRecord =>
      .ok (.complete (.record (setField name value fields)) frames)
  | state, _ => .error (.mistake ⟨state.complaint, lexeme.remaining⟩)

/-- The value that the tokens complete, each token taken in turn. -/
def State.run : State → List Lexeme → Except Obstacle Value
  | .complete value [], [] => .ok value
  | state, [] => .error (.mistake ⟨state.complaint, []⟩)
  | state, lexeme :: rest =>
      match state.step lexeme with
      | .ok next => next.run rest
      | .error obstacle => .error obstacle

/-- Reads a text as one value. -/
def read (text : List Char) : Except Obstacle Value :=
  match text with
  | '\uFEFF' :: _ => .error (.mistake ⟨.byteOrderMark, text⟩)
  | _ => (State.valueDue []).run (lexemes text)

/-- The offset of a mistake in the text it was found in. -/
def Mistake.offset (mistake : Mistake) (text : List Char) : Nat :=
  text.length - mistake.remaining.length

end TwinSchema.Json
