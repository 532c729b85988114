import TwinSchema.Text.Blank

/-!
# Runs of characters and first visible characters

Where a run of characters of a class ends, and which character is the first one
that is not blank, when a text is known by its parts.
-/

namespace TwinSchema.Text

/-- A text that does not go on with a character of a class. -/
def Stops (test : Char → Bool) (text : List Char) : Prop :=
  ∀ char ∈ text.head?, test char = false

section Runs

variable {test : Char → Bool} {run rest : List Char}

theorem stops_nil : Stops test [] := by simp [Stops]

theorem stops_cons {char : Char} (different : test char = false) :
    Stops test (char :: rest) := by
  simpa [Stops] using different

/-- Where a text does not go on with a class, no beginning of it does. -/
theorem stops_left (stops : Stops test (run ++ rest)) : Stops test run := by
  cases run with
  | nil => exact stops_nil
  | cons char run => exact stops_cons (stops char rfl)

/-- A run of a class and the text after it: the run is all that is taken. -/
theorem takeWhile_run (inside : ∀ char ∈ run, test char = true)
    (stops : Stops test rest) : (run ++ rest).takeWhile test = run := by
  rw [List.takeWhile_append_of_pos inside]
  cases rest with
  | nil => simp
  | cons char rest => simp [stops char (by simp)]

theorem dropWhile_of_stops (stops : Stops test rest) :
    rest.dropWhile test = rest := by
  cases rest with
  | nil => rfl
  | cons char rest => simp [stops char (by simp)]

theorem dropWhile_run (inside : ∀ char ∈ run, test char = true)
    (stops : Stops test rest) : (run ++ rest).dropWhile test = rest := by
  rw [List.dropWhile_append_of_pos inside, dropWhile_of_stops stops]

/-- What does not go on with a class changes nothing in the runs before it. -/
theorem takeWhile_append_stops (stops : Stops test rest) (text : List Char) :
    (text ++ rest).takeWhile test = text.takeWhile test := by
  induction text with
  | nil =>
      cases rest with
      | nil => rfl
      | cons char rest => simp [stops char (by simp)]
  | cons char text ih => simp [List.takeWhile_cons, ih]

theorem dropWhile_append_stops (stops : Stops test rest) (text : List Char) :
    (text ++ rest).dropWhile test = text.dropWhile test ++ rest := by
  induction text with
  | nil => exact dropWhile_of_stops stops
  | cons char text ih =>
      cases inside : test char <;> simp [inside, ih]

/-- A run is taken as long as it goes on. -/
theorem stops_dropWhile (test : Char → Bool) (text : List Char) :
    Stops test (text.dropWhile test) := by
  have stops := List.head?_dropWhile_not test text
  intro char member
  rw [Option.mem_def.mp member] at stops
  exact stops

end Runs

section Visible

variable {char : Char} {blanks rest : List Char}

theorem firstVisible_blanks (blank : ∀ char ∈ blanks, isBlank char = true) :
    firstVisible (blanks ++ rest) = firstVisible rest := by
  induction blanks with
  | nil => rfl
  | cons char blanks ih =>
      have first := blank char List.mem_cons_self
      have others := ih fun next member =>
        blank next (List.mem_cons_of_mem char member)
      simpa [firstVisible, first] using others

theorem firstVisible_cons (visible : isBlank char = false) :
    firstVisible (char :: rest) = some char := by
  simp [firstVisible, visible]

theorem trimLeft_blanks (blank : ∀ char ∈ blanks, isBlank char = true) :
    trimLeft (blanks ++ rest) = trimLeft rest :=
  List.dropWhile_append_of_pos blank

theorem trimLeft_append_visible (visible : isBlank char = false)
    (text rest : List Char) :
    trimLeft (text ++ char :: rest) = trimLeft text ++ char :: rest := by
  induction text with
  | nil => simp [trimLeft, visible]
  | cons next text ih =>
      cases blank : isBlank next with
      | true => simpa [trimLeft, blank] using ih
      | false => simp [trimLeft, blank]

theorem trimLeft_of_stops (stops : Stops isBlank rest) :
    trimLeft rest = rest :=
  dropWhile_of_stops stops

end Visible

theorem forall_mem_lineBreak {test : Char → Bool} (feed : test '\n' = true)
    (space : test ' ' = true) {step : Int} {level : Nat} :
    ∀ char ∈ lineBreak step level, test char = true := by
  intro char member
  rcases List.mem_cons.mp member with rfl | inside
  · exact feed
  · rw [List.eq_of_mem_replicate inside]
    exact space

theorem dropChar?_eq_some {expected : Char} {text rest : List Char}
    (dropped : dropChar? expected text = some rest) : text = expected :: rest := by
  cases text with
  | nil => cases dropped
  | cons char text =>
      simp only [dropChar?] at dropped
      split at dropped
      next same =>
        rw [Option.some.injEq] at dropped
        rw [same, dropped]
      next => cases dropped

theorem dropWord?_eq_some {word text rest : List Char}
    (dropped : dropWord? word text = some rest) : text = word ++ rest := by
  fun_induction dropWord? word text with
  | case1 => cases dropped; rfl
  | case2 => cases dropped
  | case3 word char rest ih => rw [ih dropped, List.cons_append]
  | case4 => cases dropped

end TwinSchema.Text
