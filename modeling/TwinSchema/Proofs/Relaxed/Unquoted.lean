import Mathlib.Data.List.TakeWhile
import TwinSchema.Proofs.Text.Word
import TwinSchema.Relaxed.Repair

/-!
# Repairs without quotes

The first steps of both passes over code put no quotes into it, so the steps behind them
find the same literals.
-/

namespace TwinSchema.Relaxed

open Text

/-- A run of a class that holds no quote. -/
theorem notMem_of_forall {run : List Char} {test : Char → Bool}
    (inside : ∀ char ∈ run, test char = true) (outside : test '"' = false) :
    '"' ∉ run := by
  intro member
  rw [inside _ member] at outside
  cases outside

theorem notMem_dropWhile {test : Char → Bool} {char : Char} {rest : List Char}
    (noQuote : '"' ∉ char :: rest) : '"' ∉ rest.dropWhile test :=
  fun member => noQuote (.tail _ ((List.dropWhile_suffix _).subset member))

theorem notMem_dropDanglingCommas {code : List Char} (noQuote : '"' ∉ code) :
    '"' ∉ dropDanglingCommas code := by
  fun_induction dropDanglingCommas code with
  | case1 => exact noQuote
  | case2 char rest dangling ih => exact ih fun member => noQuote (.tail _ member)
  | case3 char rest stays ih =>
      rw [List.mem_cons, not_or] at noQuote ⊢
      exact ⟨noQuote.1, ih noQuote.2⟩

/-- Foreign literals and their strict spellings are names. -/
theorem isName_of_foreignLiteral? {word spelled : List Char}
    (found : foreignLiteral? word = some spelled) :
    isName word = true ∧ isName spelled = true := by
  rw [foreignLiteral?] at found
  split at found
  next same =>
    cases found
    rw [same]
    decide
  next =>
    split at found
    next same =>
      cases found
      rw [same]
      decide
    next =>
      split at found
      next same =>
        cases found
        rcases same with same | same <;> rw [same] <;> decide
      next => cases found

theorem respellWord_cases (word following : List Char) :
    respellWord word following = word ∨
      isName word = true ∧ isName (respellWord word following) = true := by
  rw [respellWord]
  split
  next => exact .inl rfl
  next =>
    cases found : foreignLiteral? word with
    | none => exact .inl rfl
    | some spelled => exact .inr (isName_of_foreignLiteral? found)

theorem notMem_respellWord {word : List Char}
    (parts : ∀ char ∈ word, isNamePart char = true) (following : List Char) :
    '"' ∉ respellWord word following := by
  rcases respellWord_cases word following with same | ⟨-, named⟩
  · rw [same]
    exact notMem_of_forall parts rfl
  · exact notMem_of_forall (isNamePart_of_isName named) rfl

theorem parts_takeWhile {char : Char} (part : isNamePart char = true)
    (rest : List Char) :
    ∀ other ∈ char :: rest.takeWhile isNamePart, isNamePart other = true :=
  List.forall_mem_cons.mpr
    ⟨part, List.all_eq_true.mp (List.all_takeWhile (p := isNamePart))⟩

theorem notMem_mapWords_respellWord {code : List Char} (noQuote : '"' ∉ code) :
    '"' ∉ mapWords respellWord code := by
  fun_induction mapWords respellWord code with
  | case1 => exact noQuote
  | case2 char rest part ih =>
      rw [List.mem_append, not_or]
      exact ⟨notMem_respellWord (parts_takeWhile part rest) _,
        ih (notMem_dropWhile noQuote)⟩
  | case3 char rest ends ih =>
      rw [List.mem_cons, not_or] at noQuote ⊢
      exact ⟨noQuote.1, ih noQuote.2⟩

end TwinSchema.Relaxed
