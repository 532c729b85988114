import TwinSchema.Text.Blank
import TwinSchema.Text.Literal

/-!
# Brackets in source text

Where brackets close, where a statement ends, and which commas separate. The
three kinds of brackets count alike, and brackets inside literals do not count.
-/

namespace TwinSchema.Source

open Text

def isOpener (char : Char) : Bool := char == '(' || char == '[' || char == '{'

def isCloser (char : Char) : Bool := char == ')' || char == ']' || char == '}'

/-- Puts one more character in front of the enclosed text. -/
def enclose (char : Char) :
    Option (List Char × List Char) → Option (List Char × List Char)
  | some (inside, rest) => some (char :: inside, rest)
  | none => none

/-- Splits the text after an opening bracket where that bracket closes, where
`depth` brackets opened since are still open. There is no split if it never
closes. -/
def splitClosing : Cursor → (depth : Nat) → List Char →
    Option (List Char × List Char)
  | _, _, [] => none
  | .code, depth, char :: rest =>
      if isOpener char then enclose char (splitClosing .code (depth + 1) rest)
      else if isCloser char then
        match depth with
        | 0 => some ([], rest)
        | outer + 1 => enclose char (splitClosing .code outer rest)
      else
        enclose char
          (splitClosing (Cursor.code.advance sourceQuotes char) depth rest)
  | cursor, depth, char :: rest =>
      enclose char (splitClosing (cursor.advance sourceQuotes char) depth rest)

/-- Whether a statement ends before a character outside every bracket: at a
semicolon, and at a line feed unless the text goes on with a dot. -/
def endsStatement (char : Char) (rest : List Char) : Bool :=
  char == ';' || (char == '\n' && firstVisible rest != some '.')

/-- The statement that a text begins with, where `depth` brackets are open. It
also ends before a closing bracket that nothing opened. -/
def statement : Cursor → (depth : Nat) → List Char → List Char
  | _, _, [] => []
  | .code, depth, char :: rest =>
      if isOpener char then char :: statement .code (depth + 1) rest
      else if isCloser char then
        match depth with
        | 0 => []
        | outer + 1 => char :: statement .code outer rest
      else if depth = 0 ∧ endsStatement char rest then []
      else char :: statement (Cursor.code.advance sourceQuotes char) depth rest
  | cursor, depth, char :: rest =>
      char :: statement (cursor.advance sourceQuotes char) depth rest

/-- The level of brackets after one more character of code. Closing brackets
that nothing opened lead below zero. -/
def levelAfter (level : Int) (char : Char) : Int :=
  if isOpener char then level + 1
  else if isCloser char then level - 1
  else level

/-- Splits the rest of a piece from the pieces after it: pieces end at the
commas on level zero. -/
def piecesFrom : Cursor → (level : Int) → List Char →
    List Char × List (List Char)
  | _, _, [] => ([], [])
  | .code, level, char :: rest =>
      if char = ',' ∧ level = 0 then
        let (piece, others) := piecesFrom .code level rest
        ([], piece :: others)
      else
        let (piece, others) := piecesFrom
          (Cursor.code.advance sourceQuotes char) (levelAfter level char) rest
        (char :: piece, others)
  | cursor, level, char :: rest =>
      let (piece, others) :=
        piecesFrom (cursor.advance sourceQuotes char) level rest
      (char :: piece, others)

/-- The pieces between the commas on level zero, without the blank ones. -/
def splitTopLevel (text : List Char) : List (List Char) :=
  let (piece, others) := piecesFrom .code 0 text
  (piece :: others).filter fun piece => !allBlank piece

/-- The text between an opening and a closing bracket at its two ends. -/
def unwrap? (opening closing : Char) : List Char → Option (List Char)
  | [] => none
  | char :: rest =>
      if char = opening ∧ rest.getLast? = some closing then some rest.dropLast
      else none

theorem enclose_eq_some {char : Char} {inside rest : List Char}
    {split : Option (List Char × List Char)}
    (enclosed : enclose char split = some (inside, rest)) :
    ∃ inner, split = some (inner, rest) ∧ inside = char :: inner := by
  cases split with
  | none => cases enclosed
  | some pair => cases enclosed; exact ⟨pair.1, rfl, rfl⟩

theorem length_enclose {char : Char} {limit : Nat} {inside rest : List Char}
    {split : Option (List Char × List Char)}
    (bound : ∀ {inside rest}, split = some (inside, rest) →
      inside.length + rest.length < limit)
    (enclosed : enclose char split = some (inside, rest)) :
    inside.length + rest.length < limit + 1 := by
  obtain ⟨inner, found, rfl⟩ := enclose_eq_some enclosed
  have := bound found
  rw [List.length_cons]
  omega

/-- What a bracket encloses and what follows it are together shorter than the
text after the bracket. -/
theorem length_splitClosing (cursor : Cursor) (depth : Nat) (text : List Char) :
    ∀ {inside rest : List Char},
      splitClosing cursor depth text = some (inside, rest) →
      inside.length + rest.length < text.length := by
  fun_induction splitClosing cursor depth text with
  | case1 => simp
  | case2 _ _ _ _ bound => exact length_enclose bound
  | case3 =>
      intro inside after found
      simp only [Option.some.injEq, Prod.mk.injEq] at found
      simp [← found.1, ← found.2]
  | case4 => exact length_enclose (by assumption)
  | case5 => exact length_enclose (by assumption)
  | case6 => exact length_enclose (by assumption)

/-- The room that pieces take: their characters, and one more for each. -/
def room : List (List Char) → Nat
  | [] => 0
  | piece :: pieces => piece.length + 1 + room pieces

@[simp] theorem room_nil : room [] = 0 := rfl

@[simp] theorem room_cons (piece : List Char) (pieces : List (List Char)) :
    room (piece :: pieces) = piece.length + 1 + room pieces := rfl

theorem length_lt_room {piece : List Char} {pieces : List (List Char)}
    (member : piece ∈ pieces) : piece.length < room pieces := by
  induction pieces with
  | nil => cases member
  | cons first rest ih =>
      rw [room_cons]
      rcases List.mem_cons.mp member with rfl | later
      · omega
      · have := ih later
        omega

theorem room_filter (keep : List Char → Bool) (pieces : List (List Char)) :
    room (pieces.filter keep) ≤ room pieces := by
  induction pieces with
  | nil => simp
  | cons piece rest bound =>
      rw [List.filter_cons]
      split
      · simp only [room_cons]
        omega
      · simp only [room_cons]
        omega

theorem room_piecesFrom (cursor : Cursor) (level : Int) (text : List Char) :
    (piecesFrom cursor level text).1.length +
      room (piecesFrom cursor level text).2 = text.length := by
  fun_induction piecesFrom cursor level text with
  | case1 => rfl
  | case2 =>
      rename_i split bound
      simp only [split] at bound
      simp only [List.length_nil, room_cons, List.length_cons]
      omega
  | case3 =>
      rename_i split bound
      simp only [split] at bound
      simp only [List.length_cons]
      omega
  | case4 =>
      rename_i split bound
      simp only [split] at bound
      simp only [List.length_cons]
      omega

/-- The pieces of a text take no more room than the text. -/
theorem room_splitTopLevel (text : List Char) :
    room (splitTopLevel text) ≤ text.length + 1 := by
  have exact := room_piecesFrom .code 0 text
  have kept := room_filter (fun piece => !allBlank piece)
    ((piecesFrom .code 0 text).1 :: (piecesFrom .code 0 text).2)
  simp only [room_cons] at kept
  simp only [splitTopLevel]
  omega

theorem length_unwrap? {opening closing : Char} {text inside : List Char}
    (unwrapped : unwrap? opening closing text = some inside) :
    inside.length + 2 = text.length := by
  cases text with
  | nil => simp [unwrap?] at unwrapped
  | cons char rest =>
      simp only [unwrap?] at unwrapped
      split at unwrapped
      · rename_i matched
        have nonempty : rest ≠ [] := by
          intro empty
          simp [empty] at matched
        have positive := List.length_pos_iff.mpr nonempty
        simp only [Option.some.injEq] at unwrapped
        rw [← unwrapped, List.length_dropLast, List.length_cons]
        omega
      · simp at unwrapped

/-- The pieces between brackets are shorter together than what is around them. -/
theorem room_of_unwrap {opening closing : Char} {arguments body : List Char}
    (wrapped : unwrap? opening closing (trim arguments) = some body) :
    room (splitTopLevel body) < arguments.length := by
  have := length_unwrap? wrapped
  have := length_trim arguments
  have := room_splitTopLevel body
  omega

theorem length_of_mem_pieces {opening closing : Char} {arguments body : List Char}
    (wrapped : unwrap? opening closing (trim arguments) = some body) :
    ∀ piece ∈ splitTopLevel body, piece.length < arguments.length :=
  fun _ member => Nat.lt_trans (length_lt_room member) (room_of_unwrap wrapped)

end TwinSchema.Source
