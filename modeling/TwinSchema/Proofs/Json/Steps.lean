import TwinSchema.Json.Reader

/-!
# Steps of the reader

What the reader does with one token, when that token is no mistake: the states
that it leaves and reaches, as a relation. Whatever is kept by every step is kept
by a whole run.
-/

namespace TwinSchema.Json

/-- The tokens that begin a value, and the state behind each of them. -/
inductive BeginsValue (frames : List Frame) : Token → State → Prop where
  | record : BeginsValue frames .openRecord (.nameOrEnd frames)
  | list : BeginsValue frames .openList (.itemOrEnd frames)
  | scalar (value : Scalar) :
      BeginsValue frames (.scalar value) (.complete (.scalar value) frames)
  | text (value : String) :
      BeginsValue frames (.text value) (.complete (.text value) frames)

inductive Steps : State → Token → State → Prop where
  | value {frames : List Frame} {token : Token} {next : State}
      (begins : BeginsValue frames token next) : Steps (.valueDue frames) token next
  | item {frames : List Frame} {token : Token} {next : State}
      (begins : BeginsValue (.list [] :: frames) token next) :
      Steps (.itemOrEnd frames) token next
  | noItem (frames : List Frame) :
      Steps (.itemOrEnd frames) .closeList (.complete (.list []) frames)
  | noField (frames : List Frame) :
      Steps (.nameOrEnd frames) .closeRecord (.complete (.record []) frames)
  | firstName (name : String) (frames : List Frame) :
      Steps (.nameOrEnd frames) (.text name) (.colonDue [] name frames)
  | name (fields : List (String × Value)) (name : String) (frames : List Frame) :
      Steps (.nameDue fields frames) (.text name) (.colonDue fields name frames)
  | colon (fields : List (String × Value)) (name : String) (frames : List Frame) :
      Steps (.colonDue fields name frames) .colon
        (.valueDue (.record fields name :: frames))
  | nextItem (value : Value) (items : List Value) (frames : List Frame) :
      Steps (.complete value (.list items :: frames)) .comma
        (.valueDue (.list (value :: items) :: frames))
  | lastItem (value : Value) (items : List Value) (frames : List Frame) :
      Steps (.complete value (.list items :: frames)) .closeList
        (.complete (.list (value :: items).reverse) frames)
  | nextField (value : Value) (fields : List (String × Value)) (name : String)
      (frames : List Frame) :
      Steps (.complete value (.record fields name :: frames)) .comma
        (.nameDue (setField name value fields) frames)
  | lastField (value : Value) (fields : List (String × Value)) (name : String)
      (frames : List Frame) :
      Steps (.complete value (.record fields name :: frames)) .closeRecord
        (.complete (.record (setField name value fields)) frames)

variable {frames : List Frame} {lexeme : Lexeme} {next : State}

theorem beginsValue_of_eq_ok (begun : beginValue frames lexeme = .ok next) :
    BeginsValue frames lexeme.token next := by
  rw [beginValue] at begun
  split at begun
  next token => cases begun; rw [token]; exact .record
  next token => cases begun; rw [token]; exact .list
  next value token => cases begun; rw [token]; exact .scalar value
  next value token => cases begun; rw [token]; exact .text value
  all_goals cases begun

theorem exists_name_of_beginField {fields : List (String × Value)}
    (begun : beginField fields frames lexeme = .ok next) :
    ∃ name, lexeme.token = .text name ∧ next = .colonDue fields name frames := by
  rw [beginField] at begun
  split at begun
  next name token => cases begun; exact ⟨name, token, rfl⟩
  all_goals cases begun

/-- Where the reader goes on it takes one of its steps. -/
theorem steps_of_eq_ok {state : State} (stepped : state.step lexeme = .ok next) :
    Steps state lexeme.token next := by
  unfold State.step at stepped
  split at stepped
  next => exact .value (beginsValue_of_eq_ok stepped)
  next token => cases stepped; rw [token]; exact .noItem _
  next => exact .item (beginsValue_of_eq_ok stepped)
  next token => cases stepped; rw [token]; exact .noField _
  next =>
    obtain ⟨name, token, rfl⟩ := exists_name_of_beginField stepped
    rw [token]
    exact .firstName name _
  next =>
    obtain ⟨name, token, rfl⟩ := exists_name_of_beginField stepped
    rw [token]
    exact .name _ name _
  next token => cases stepped; rw [token]; exact .colon _ _ _
  next token => cases stepped; rw [token]; exact .nextItem _ _ _
  next token => cases stepped; rw [token]; exact .lastItem _ _ _
  next token => cases stepped; rw [token]; exact .nextField _ _ _ _
  next token => cases stepped; rw [token]; exact .lastField _ _ _ _
  next => cases stepped

/-- A text is read from its tokens, unless a byte order mark begins it. -/
theorem run_of_read_eq {text : List Char} {result : Except Obstacle Value}
    (same : read text = result) (other : ∀ mistake, result ≠ .error (.mistake mistake)) :
    (State.valueDue []).run (lexemes text) = result := by
  unfold read at same
  split at same
  next => exact absurd same.symm (other _)
  next => exact same

theorem run_of_read {text : List Char} {value : Value} (found : read text = .ok value) :
    (State.valueDue []).run (lexemes text) = .ok value :=
  run_of_read_eq found (by simp)

theorem run_of_longInteger {text : List Char} {digits : Nat}
    (stopped : read text = .error (.longInteger digits)) :
    (State.valueDue []).run (lexemes text) = .error (.longInteger digits) :=
  run_of_read_eq stopped (by simp)

end TwinSchema.Json
