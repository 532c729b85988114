import TwinSchema.Proofs.Source.Tame
import TwinSchema.Source.Reader

/-!
# The last strategy

Source text that declares no schema and begins with no constructor call is
either taken for the reference schema or refused. The signature of the reference
schema counts only where no rule of the classification table applies before it.
-/

namespace TwinSchema.Source

open Text

theorem form_eq_none_of_search? {form : List Char → Option (List Char)}
    {text : List Char} (nowhere : search? form text = none) (last : form [] = none) :
    ∀ suffix, suffix <:+ text → form suffix = none := by
  induction text with
  | nil =>
      intro suffix isSuffix
      rw [List.suffix_nil.mp isSuffix, last]
  | cons char text ih =>
      rw [search?] at nowhere
      split at nowhere
      next => cases nowhere
      next here =>
        intro suffix isSuffix
        rcases List.suffix_cons_iff.mp isSuffix with rfl | later
        · exact here
        · exact ih nowhere suffix later

theorem exportedDeclaration?_eq_none {text : List Char}
    (undeclared : declaration? text = none) : exportedDeclaration? text = none := by
  have nowhere : search? rightSide? text = none := Option.map_eq_none_iff.mp undeclared
  have exported : search? exportedRightSide? text = none := by
    apply search?_eq_none
    intro suffix isSuffix
    cases found : exportedRightSide? suffix with
    | none => rfl
    | some rest =>
        simp only [exportedRightSide?, Option.bind_eq_bind,
          Option.bind_eq_some_iff] at found
        obtain ⟨afterWord, word, afterBlanks, blanks, declared⟩ := found
        have behind : afterBlanks <:+ suffix :=
          (remains_of_blanks? blanks).suffix.trans
            (remains_of_dropWord? (by decide) word).suffix
        rw [form_eq_none_of_search? nowhere rfl _ (behind.trans isSuffix)] at declared
        cases declared
  rw [exportedDeclaration?, exported]
  rfl

/-- The tokens of calls by which a text is classified. -/
def kindTokens : List String :=
  ["object(", "array(", "string()", "number()", "boolean()", "date()", "enum(",
    "literal(", "nullable()", "optional()", "union(", "null()", "undefined()",
    "bigint()"]

/-- A text without these tokens has no kind. -/
theorem classifyKind_eq_none_iff {text : List Char} :
    classifyKind text = none ↔
      ∀ token ∈ kindTokens, occursIn token.toList text = false := by
  simp [classifyKind, rules, kindTokens, tokenRule]

/-- The table gives a text its kind, if it has one, before the reference schema is
asked for. -/
theorem verdict_classify (text : List Char) :
    (classify text).map Rule.verdict =
      match classifyKind text with
      | some rule => some rule.verdict
      | none => if hasSignature text = true then some .reference else none := by
  let kinds := rules.filter fun rule => rule.verdict != .reference
  have parts : rules = kinds ++ [⟨"reference-schema", hasSignature, .reference⟩] := rfl
  have kind : classifyKind text = kinds.find? fun rule => rule.applies text := by
    rw [List.find?_filter, classifyKind]
    congr 1
    funext rule
    rw [Bool.decide_and, Bool.decide_eq_true, Bool.decide_eq_true]
  rw [classify, parts, List.find?_append, ← kind]
  cases classifyKind text with
  | some rule => rfl
  | none =>
      rw [Option.none_or, List.find?_singleton]
      cases signed : hasSignature text <;> simp [signed]

theorem recognizedReference?_eq (text : List Char) :
    recognizedReference? text =
      if hasSignature text = true ∧ classifyKind text = none then some referenceSchema
      else none := by
  rw [recognizedReference?, verdict_classify]
  cases found : classifyKind text with
  | some rule =>
      have plain := List.find?_some found
      rw [Bool.and_eq_true, bne_iff_ne] at plain
      cases verdict : rule.verdict with
      | plain kind => simp [verdict]
      | reference => exact absurd verdict plain.1
  | none => cases hasSignature text <;> rfl

section Undeclared

variable {text : List Char} (visible : allBlank (clean text) = false)
  (undeclared : declaration? (clean text) = none)
  (uncalled : constructorHead? (clean text) = none)
include visible undeclared uncalled

/-- Without a declaration and without a constructor call at its beginning, a text
is left to the last strategy. -/
theorem read_eq_recognized :
    read text =
      match recognizedReference? (clean text) with
      | some node => .ok node
      | none => .error (.fault (.unrecognized Fault.nothingFound)) := by
  have bare : bareExpression? (clean text) = none := by
    rw [bareExpression?, uncalled]
    rfl
  rw [read, readClean, visible, exportedDeclaration?_eq_none undeclared, undeclared, bare]
  rfl

/-- Such a text is read as the reference schema where it has its signature and no
token of a call. Otherwise it is refused. -/
theorem read_undeclared :
    read text =
      if hasSignature (clean text) = true ∧
          ∀ token ∈ kindTokens, occursIn token.toList (clean text) = false then
        .ok referenceSchema
      else .error (.fault (.unrecognized Fault.nothingFound)) := by
  rw [read_eq_recognized visible undeclared uncalled, recognizedReference?_eq]
  simp only [classifyKind_eq_none_iff]
  by_cases known : hasSignature (clean text) = true ∧
      ∀ token ∈ kindTokens, occursIn token.toList (clean text) = false
  · rw [if_pos known, if_pos known]
  · rw [if_neg known, if_neg known]

end Undeclared

/-- A comment does not count, and two names of the reference schema are enough. -/
theorem read_undeclared_names :
    let text := "check(platform, post_id) // z.string()".toList
    allBlank (clean text) = false ∧ declaration? (clean text) = none ∧
      constructorHead? (clean text) = none ∧ read text = .ok referenceSchema := by
  intro text
  have visible : allBlank (clean text) = false := by decide +kernel
  have undeclared : declaration? (clean text) = none := by decide +kernel
  have uncalled : constructorHead? (clean text) = none := by decide +kernel
  have known : hasSignature (clean text) = true ∧
      ∀ token ∈ kindTokens, occursIn token.toList (clean text) = false := by
    decide +kernel
  refine ⟨visible, undeclared, uncalled, ?_⟩
  rw [read_undeclared visible undeclared uncalled, if_pos known]

/-- A call among the names of the reference schema gives the text a kind, and the
text is refused. -/
theorem read_undeclared_fails :
    let text := "check(platform, post_id, string())".toList
    allBlank (clean text) = false ∧ declaration? (clean text) = none ∧
      constructorHead? (clean text) = none ∧ hasSignature (clean text) = true ∧
      read text = .error (.fault (.unrecognized Fault.nothingFound)) := by
  intro text
  have visible : allBlank (clean text) = false := by decide +kernel
  have undeclared : declaration? (clean text) = none := by decide +kernel
  have uncalled : constructorHead? (clean text) = none := by decide +kernel
  have kind : ¬(hasSignature (clean text) = true ∧ classifyKind (clean text) = none) := by
    decide +kernel
  refine ⟨visible, undeclared, uncalled, by decide +kernel, ?_⟩
  rw [read_eq_recognized visible undeclared uncalled, recognizedReference?_eq, if_neg kind]

end TwinSchema.Source
