import TwinSchema.Proofs.Relaxed.Comment
import TwinSchema.Proofs.Relaxed.Integers
import TwinSchema.Relaxed.Reader

/-!
# Lines of a repaired document

Removing comments only drops characters, and no line feed among them. The regular
pass only adds and drops quotes, backslashes and commas. So the line on which a
repaired document cannot be read is that line of the document itself.
-/

namespace TwinSchema.Relaxed

open Text

/-- The characters that the regular pass neither adds nor drops. -/
def isLasting (char : Char) : Bool := char ∉ ['\'', '"', '\\', ',']

theorem filter_requote (quoting : Quoting) (text : List Char) :
    (requote quoting text).filter isLasting = text.filter isLasting := by
  have apostrophe : isLasting '\'' = false := by decide
  have quote : isLasting '"' = false := by decide
  have backslash : isLasting '\\' = false := by decide
  fun_induction requote quoting text with
  | case1 => rfl
  | _ => simp_all [List.filter_cons]

theorem filter_mapCode {change : List Char → List Char}
    (lasting : ∀ code, (change code).filter isLasting = code.filter isLasting)
    (text : List Char) :
    (mapCode change text).filter isLasting = text.filter isLasting := by
  have chunk (chunk : Chunk) :
      (chunk.mapCode change).filter isLasting = chunk.text.filter isLasting := by
    cases chunk with
    | code code => exact lasting code
    | literal _ => rfl
  rw [mapCode, List.filter_flatMap]
  simp only [chunk]
  rw [← List.filter_flatMap, flatMap_text_splitChunks]

theorem filter_dropDanglingCommas (code : List Char) :
    (dropDanglingCommas code).filter isLasting = code.filter isLasting := by
  fun_induction dropDanglingCommas code with
  | case1 => rfl
  | case2 char rest dangling ih => rw [ih, dangling.1]; rfl
  | case3 char rest _ ih => rw [List.filter_cons, List.filter_cons, ih]

theorem filter_quoteSlotKeysFrom (scan : KeyScan) (code : List Char) :
    (quoteSlotKeysFrom scan code).filter isLasting = code.filter isLasting := by
  have quote : isLasting '"' = false := by decide
  fun_induction quoteSlotKeysFrom scan code with
  | case1 => rfl
  | _ => simp_all [List.filter_cons]

/-- The regular pass adds and drops quotes, backslashes and commas alone. -/
theorem filter_normalize (text : List Char) :
    (normalize text).filter isLasting = text.filter isLasting := by
  have repaired (code : List Char) :
      (repairCode code).filter isLasting = code.filter isLasting := by
    rw [repairCode, quoteSlotKeys, filter_quoteSlotKeysFrom, filter_dropDanglingCommas]
  rw [normalize, filter_mapCode repaired, convertSingleQuotes, filter_requote]

/-- A document that cannot be decoded is not empty, or the mistake is located in
the repaired document. -/
theorem detail_of_malformed {text : List Char} {detail : Malformed}
    (refused : decode text = .error (.malformed detail)) :
    detail = emptyDocument ∨
      ∃ mistake, detail = locate (normalize (stripComments documentQuotes text)) mistake := by
  rw [decode] at refused
  split at refused
  next => cases refused; exact .inl rfl
  next =>
    simp only [decodeClean] at refused
    split at refused
    next => cases refused
    next => cases refused
    next mistake _ =>
      split at refused
      next => cases refused
      next => cases refused
      next => cases refused; exact .inr ⟨mistake, rfl⟩

/-- A document that cannot be decoded has its line feeds still after its comments
are removed and after the regular pass. Each line of it keeps some of its
characters through the first and, but for quotes, backslashes and commas, all of
them through the second. The mistake is told to be on one of these lines. -/
theorem lines_of_malformed {text : List Char} {detail : Malformed}
    (refused : decode text = .error (.malformed detail)) :
    let stripped := stripComments documentQuotes text
    let normalized := normalize stripped
    stripped.count '\n' = text.count '\n' ∧ normalized.count '\n' = text.count '\n' ∧
      List.Forall₂ List.Sublist (stripped.splitOn '\n') (text.splitOn '\n') ∧
      (normalized.splitOn '\n').map (List.filter isLasting) =
        (stripped.splitOn '\n').map (List.filter isLasting) ∧
      ∃ line, detail.line = some line ∧ 1 ≤ line ∧ line ≤ (text.splitOn '\n').length := by
  intro stripped normalized
  have feed : isLasting '\n' = true := by decide
  have thinned : Thinned stripped text := thinned_stripFrom (.text .code) text
  have kept : normalized.filter isLasting = stripped.filter isLasting :=
    filter_normalize stripped
  have feeds : normalized.count '\n' = stripped.count '\n' := by
    rw [← List.count_filter feed, kept, List.count_filter feed]
  refine ⟨thinned.count_eq, feeds.trans thinned.count_eq, thinned.splitOn, ?_, ?_⟩
  · rw [map_filter_splitOn feed, map_filter_splitOn feed, kept]
  · rcases detail_of_malformed refused with rfl | ⟨mistake, rfl⟩
    · refine ⟨1, rfl, Int.le_refl 1, ?_⟩
      rw [length_splitOn]
      omega
    · have first := Position.line_ofOffset normalized (mistake.offset normalized)
      have last := Position.line_ofOffset_le normalized (mistake.offset normalized)
      rw [length_splitOn, feeds, thinned.count_eq, ← length_splitOn] at last
      refine ⟨_, rfl, ?_, Int.ofNat_le.mpr last⟩
      rw [first]
      omega

/-- Both kinds of comments, an apostrophe in a key and a comma in front of a line
feed and a bracket stand before the mistake. -/
theorem lines_of_malformed_key :
    let text := "\x7b // 'a'\r\n 'b\\'': [1,\n ],\n c \"d\" /* x\n */ \x7d".toList
    let stripped := stripComments documentQuotes text
    let normalized := normalize stripped
    ∃ detail, decode text = .error (.malformed detail) ∧ detail.line = some 4 ∧
      stripped.count '\n' = text.count '\n' ∧ normalized.count '\n' = text.count '\n' ∧
      List.Forall₂ List.Sublist (stripped.splitOn '\n') (text.splitOn '\n') ∧
      (normalized.splitOn '\n').map (List.filter isLasting) =
        (stripped.splitOn '\n').map (List.filter isLasting) ∧
      ∃ line, detail.line = some line ∧ 1 ≤ line ∧ line ≤ (text.splitOn '\n').length := by
  intro text stripped normalized
  have told : (match decode text with
      | .error (.malformed detail) => detail.line
      | _ => none) = some 4 := by
    decide +kernel
  split at told
  next detail refused => exact ⟨detail, refused, told, lines_of_malformed refused⟩
  next => cases told

end TwinSchema.Relaxed
