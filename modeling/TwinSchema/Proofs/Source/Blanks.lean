import Mathlib.Data.List.Find
import TwinSchema.Proofs.Source.Declarations

/-!
# Blanks in front of clean text

Every search through clean text is for something that begins with a visible
character, so blanks in front of the text change nothing in what is read.
-/

namespace TwinSchema.Source

open Text

/-- Whether a word has characters and all of them are visible. -/
def isVisibleWord (word : List Char) : Bool :=
  !word.isEmpty && word.all fun char => !isBlank char

theorem dropWord?_blank {word : List Char} (visible : isVisibleWord word = true)
    {char : Char} (blank : isBlank char = true) (rest : List Char) :
    dropWord? word (char :: rest) = none := by
  cases word with
  | nil => cases visible
  | cons letter word =>
      rw [dropWord?, if_neg]
      rintro rfl
      simp [isVisibleWord, blank] at visible

theorem isPrefixOf_blank {word : List Char} (visible : isVisibleWord word = true)
    {char : Char} (blank : isBlank char = true) (rest : List Char) :
    word.isPrefixOf (char :: rest) = false := by
  cases word with
  | nil => cases visible
  | cons letter word =>
      have different : (letter == char) = false := by
        rw [beq_eq_false_iff_ne]
        rintro rfl
        simp [isVisibleWord, blank] at visible
      rw [List.isPrefixOf, different, Bool.false_and]

theorem declaringWord?_blank {char : Char} (blank : isBlank char = true)
    (rest : List Char) : declaringWord? (char :: rest) = none := by
  rw [declaringWord?, dropWord?_blank (by decide) blank,
    dropWord?_blank (by decide) blank, dropWord?_blank (by decide) blank]
  rfl

/-- No declaration begins with a blank. -/
theorem rightSide?_blank {char : Char} (blank : isBlank char = true)
    (rest : List Char) : rightSide? (char :: rest) = none := by
  rw [rightSide?, declaringWord?_blank blank]
  rfl

theorem exportedRightSide?_blank {char : Char} (blank : isBlank char = true)
    (rest : List Char) : exportedRightSide? (char :: rest) = none := by
  rw [exportedRightSide?, dropWord?_blank (by decide) blank]
  rfl

theorem nameAt?_blank {char : Char} (blank : isBlank char = true)
    (rest : List Char) : nameAt? (char :: rest) = none := by
  have visible : ∀ entry ∈ vocabulary, isVisibleWord entry.1.toList = true := by
    decide
  rw [nameAt?, List.find?_eq_none]
  rintro ⟨name, node⟩ member
  simp [dropWord?_blank (visible _ member) blank]

section Blanks

variable {blanks : List Char} (blank : ∀ char ∈ blanks, isBlank char = true)
  (text : List Char)

include blank

theorem allBlank_blanks : allBlank (blanks ++ text) = allBlank text := by
  rw [allBlank, List.all_append, List.all_eq_true.mpr blank, Bool.true_and, allBlank]

/-- A search for what begins with a visible character passes over blanks. -/
theorem search?_blanks {form : List Char → Option (List Char)}
    (fails : ∀ char rest, isBlank char = true → form (char :: rest) = none) :
    search? form (blanks ++ text) = search? form text := by
  apply search?_append
  intro suffix isSuffix nonempty
  cases suffix with
  | nil => exact absurd rfl nonempty
  | cons char suffix =>
      exact fails char _ (blank char (isSuffix.subset List.mem_cons_self))

theorem occursIn_blanks {word : List Char} (visible : isVisibleWord word = true) :
    occursIn word (blanks ++ text) = occursIn word text := by
  induction blanks with
  | nil => rfl
  | cons char blanks ih =>
      rw [List.forall_mem_cons] at blank
      rw [List.cons_append, occursIn, isPrefixOf_blank visible blank.1, ih blank.2,
        Bool.false_or]

theorem occurrences_blanks : occurrences (blanks ++ text) = occurrences text := by
  induction blanks with
  | nil => rfl
  | cons char blanks ih =>
      rw [List.forall_mem_cons] at blank
      rw [List.cons_append, occurrences, nameAt?_blank blank.1, ih blank.2]

end Blanks

/-- Texts in which the same words occur are classified alike. -/
theorem classify_congr {text other : List Char}
    (same : ∀ word, isVisibleWord word = true → occursIn word text = occursIn word other) :
    classify text = classify other := by
  have token : ∀ kind {name : String}, isVisibleWord name.toList = true →
      (tokenRule kind name).applies text = (tokenRule kind name).applies other :=
    fun _ _ visible => same _ visible
  have signature : hasSignature text = hasSignature other := by
    have visible : ∀ name ∈ signatureTokens, isVisibleWord name.toList = true := by
      decide
    have counted : ∀ name ∈ signatureTokens, occursIn name.toList text = true ↔
        occursIn name.toList other = true := by
      intro name member
      rw [same _ (visible name member)]
    rw [hasSignature, hasSignature, List.countP_congr counted]
  have applies : ∀ rule ∈ rules, rule.applies text = rule.applies other := by
    simp only [rules, List.forall_mem_cons]
    exact ⟨token _ rfl, token _ rfl, token _ rfl, token _ rfl, token _ rfl,
      token _ rfl, token _ rfl, token _ rfl, token _ rfl, token _ rfl,
      token _ rfl, token _ rfl, token _ rfl, token _ rfl, signature, by simp⟩
  exact List.find?_congr applies

section Reading

variable {blanks : List Char} (blank : ∀ char ∈ blanks, isBlank char = true)
  (text : List Char)

include blank

theorem classify_blanks : classify (blanks ++ text) = classify text :=
  classify_congr fun _ visible => occursIn_blanks blank text visible

theorem firstReadable_blanks (candidates : List (Option (List Char))) :
    firstReadable (blanks ++ text) candidates = firstReadable text candidates := by
  have topLevel : ∀ expression,
      readTopLevel (blanks ++ text) expression = readTopLevel text expression := by
    intro expression
    simp only [readTopLevel, namedProperties, occurrences_blanks blank]
  induction candidates with
  | nil => rfl
  | cons candidate candidates ih =>
      cases candidate with
      | none => exact ih
      | some expression => rw [firstReadable, firstReadable, topLevel, ih]

theorem readClean_blanks : readClean (blanks ++ text) = readClean text := by
  have exported : exportedDeclaration? (blanks ++ text) = exportedDeclaration? text := by
    rw [exportedDeclaration?, exportedDeclaration?,
      search?_blanks blank text fun char rest visible =>
        exportedRightSide?_blank visible rest]
  have declared : declaration? (blanks ++ text) = declaration? text := by
    rw [declaration?, declaration?,
      search?_blanks blank text fun char rest visible => rightSide?_blank visible rest]
  have bare : bareExpression? (blanks ++ text) = bareExpression? text := by
    simp only [bareExpression?, constructorHead?, trimLeft_blanks blank]
  rw [readClean, readClean, allBlank_blanks blank, exported, declared, bare,
    firstReadable_blanks blank]
  simp only [recognizedReference?, classify_blanks blank]

end Reading

end TwinSchema.Source
