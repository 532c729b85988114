import TwinSchema.Text.Word

/-!
# The characters of names

No part of a name is blank, and whatever begins a name or stands in a bare key
may also go on with one.
-/

namespace TwinSchema.Text

/-- The codes of the blank characters. -/
def blankCodes : List Nat :=
  List.range' 0x09 5 ++ List.range' 0x1C 5 ++ List.range' 0x2000 11 ++
    [0x85, 0xA0, 0x1680, 0x2028, 0x2029, 0x202F, 0x205F, 0x3000]

theorem mem_blankCodes {char : Char} (blank : isBlank char = true) :
    char.toNat ∈ blankCodes := by
  simp only [isBlank, Bool.or_eq_true, Bool.and_eq_true, decide_eq_true_eq,
    beq_iff_eq] at blank
  simp only [blankCodes, List.mem_append, List.mem_range'_1, List.mem_cons,
    List.not_mem_nil, or_false]
  omega

theorem not_isNamePart_of_mem :
    ∀ code ∈ blankCodes, isNamePart (Char.ofNat code) = false := by
  decide +kernel

theorem isBlank_of_isNamePart {char : Char} (part : isNamePart char = true) :
    isBlank char = false := by
  rw [Bool.eq_false_iff]
  intro blank
  have different := not_isNamePart_of_mem _ (mem_blankCodes blank)
  rw [Char.ofNat_toNat, part] at different
  cases different

theorem range_of_isAlpha {char : Char} (letter : char.isAlpha = true) :
    (65 ≤ char.toNat ∧ char.toNat ≤ 90) ∨ (97 ≤ char.toNat ∧ char.toNat ≤ 122) := by
  have ranges : (decide (65 ≤ char.val ∧ char.val ≤ 90) ||
      (decide (97 ≤ char.val) && decide (char.val ≤ 122))) = true := letter
  simp only [Bool.or_eq_true, Bool.and_eq_true, decide_eq_true_eq,
    UInt32.le_iff_toNat_le] at ranges
  exact ranges

/-- Letters and digits are visible characters of the ASCII block. -/
theorem range_of_isAlphanum {char : Char} (letter : char.isAlphanum = true) :
    0x21 ≤ char.toNat ∧ char.toNat < 0x80 := by
  rw [Char.isAlphanum, Bool.or_eq_true] at letter
  rcases letter with alpha | digit
  · have := range_of_isAlpha alpha
    omega
  · have range : (decide (48 ≤ char.val) && decide (char.val ≤ 57)) = true := digit
    simp only [Bool.and_eq_true, decide_eq_true_eq, UInt32.le_iff_toNat_le] at range
    change 48 ≤ char.toNat ∧ char.toNat ≤ 57 at range
    omega

theorem isNamePart_of_isAlphanum {char : Char} (letter : char.isAlphanum = true) :
    isNamePart char = true := by
  have word : isAlphanumeric char = true := by
    simp only [isAlphanumeric]
    rw [if_pos (range_of_isAlphanum letter).2, letter]
  rw [isNamePart, isWordChar, word, Bool.or_true, Bool.or_true]

theorem isNamePart_of_isNameStart {char : Char}
    (start : isNameStart char = true) : isNamePart char = true := by
  simp only [isNameStart, Bool.or_eq_true, beq_iff_eq] at start
  rcases start with (letter | rfl) | rfl
  · exact isNamePart_of_isAlphanum (by simp [Char.isAlphanum, letter])
  · rfl
  · rfl

theorem isNamePart_of_isKeyChar {char : Char} (key : isKeyChar char = true) :
    isNamePart char = true := by
  simp only [isKeyChar, Bool.or_eq_true, beq_iff_eq] at key
  rcases key with (letter | rfl) | rfl
  · exact isNamePart_of_isAlphanum letter
  · rfl
  · rfl

/-- Whether a text is a name: it begins like one and goes on with parts of
names. -/
def isName : List Char → Bool
  | [] => false
  | char :: rest => isNameStart char && rest.all isNamePart

theorem exists_of_isName {name : List Char} (named : isName name = true) :
    ∃ first rest, name = first :: rest ∧ isNameStart first = true ∧
      ∀ char ∈ rest, isNamePart char = true := by
  cases name with
  | nil => cases named
  | cons first rest =>
      rw [isName, Bool.and_eq_true, List.all_eq_true] at named
      exact ⟨first, rest, rfl, named.1, named.2⟩

theorem isNamePart_of_isName {name : List Char} (named : isName name = true) :
    ∀ char ∈ name, isNamePart char = true := by
  obtain ⟨first, rest, rfl, start, parts⟩ := exists_of_isName named
  exact List.forall_mem_cons.mpr ⟨isNamePart_of_isNameStart start, parts⟩

/-- What follows a name is the end of the text. -/
theorem suffix_of_name? {text name rest : List Char}
    (found : name? text = some (name, rest)) : rest <:+ text := by
  cases text with
  | nil => cases found
  | cons char text =>
      rw [name?] at found
      split at found
      next =>
        cases found
        exact (List.dropWhile_suffix _).trans (List.suffix_cons _ _)
      next => cases found

end TwinSchema.Text
