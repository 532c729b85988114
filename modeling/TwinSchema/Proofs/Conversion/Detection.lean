import TwinSchema.Command.Run
import TwinSchema.Proofs.Conversion.FromDocument
import TwinSchema.Proofs.Node.Complete

/-!
# Telling documents from source text

What is written for a node shows its form. A document decodes to a record with a
text as its type. Source text begins with the letter z and a dot; no repair takes
them away or puts anything before them, and no value begins like that.
-/

namespace TwinSchema

open Text

namespace Relaxed

/-- A text that begins with the letter z and a dot. -/
def BeginsPath (text : List Char) : Prop := ∃ rest, text = 'z' :: '.' :: rest

namespace BeginsPath

variable {text : List Char}

theorem stripComments (begins : BeginsPath text) :
    BeginsPath (stripComments documentQuotes text) := by
  obtain ⟨rest, rfl⟩ := begins
  cases rest <;> exact ⟨_, rfl⟩

theorem convertSingleQuotes (begins : BeginsPath text) :
    BeginsPath (convertSingleQuotes text) := by
  obtain ⟨rest, rfl⟩ := begins
  exact ⟨_, rfl⟩

/-- The path stands in the first chunk, which is code. -/
theorem mapCode {change : List Char → List Char}
    (keeps : ∀ code, BeginsPath code → BeginsPath (change code))
    (begins : BeginsPath text) : BeginsPath (mapCode change text) := by
  obtain ⟨rest, rfl⟩ := begins
  obtain ⟨changed, same⟩ := keeps ('z' :: '.' :: (splitFrom .code rest).1) ⟨_, rfl⟩
  have split : splitChunks ('z' :: '.' :: rest) =
      .code ('z' :: '.' :: (splitFrom .code rest).1) :: (splitFrom .code rest).2 :=
    rfl
  rw [Relaxed.mapCode, split, List.flatMap_cons, Chunk.mapCode, same]
  exact ⟨_, rfl⟩

theorem dropDanglingCommas (begins : BeginsPath text) :
    BeginsPath (dropDanglingCommas text) := by
  obtain ⟨rest, rfl⟩ := begins
  exact ⟨Relaxed.dropDanglingCommas rest, by simp [Relaxed.dropDanglingCommas]⟩

theorem repairCode (begins : BeginsPath text) : BeginsPath (repairCode text) := by
  obtain ⟨rest, same⟩ := begins.dropDanglingCommas
  rw [Relaxed.repairCode, same]
  exact ⟨_, rfl⟩

theorem normalize (begins : BeginsPath text) : BeginsPath (normalize text) :=
  begins.convertSingleQuotes.mapCode fun _ begins => begins.repairCode

/-- The letter z is a word of its own before a dot. -/
theorem mapWords {change : List Char → List Char → List Char}
    (keeps : ∀ rest, change ['z'] ('.' :: rest) = ['z'])
    (begins : BeginsPath text) : BeginsPath (mapWords change text) := by
  obtain ⟨rest, rfl⟩ := begins
  have word : isNamePart 'z' = true := by decide
  have ended : isNamePart '.' = false := by decide
  refine ⟨Relaxed.mapWords change rest, ?_⟩
  rw [Relaxed.mapWords, if_pos word, List.takeWhile_cons_of_neg (by simp [ended]),
    List.dropWhile_cons_of_neg (by simp [ended]), keeps, Relaxed.mapWords,
    if_neg (by simp [ended])]
  rfl

theorem repairWords (begins : BeginsPath text) : BeginsPath (repairWords text) :=
  (begins.mapWords fun _ => rfl).mapWords fun _ => rfl

theorem insertMissingCommas (begins : BeginsPath text) :
    BeginsPath (insertMissingCommas text) := by
  obtain ⟨rest, rfl⟩ := begins
  exact ⟨_, rfl⟩

/-- A path is no list of fields, so it gets no braces. -/
theorem wrapBareBody (begins : BeginsPath text) :
    BeginsPath (wrapBareBody text) := by
  obtain ⟨rest, rfl⟩ := begins
  have named : name? (dropQuote (trimLeft ('z' :: '.' :: rest))) =
      some (['z'], '.' :: rest) := rfl
  have notBare : isBareBody ('z' :: '.' :: rest) = false := by
    rw [isBareBody, named]
    rfl
  rw [Relaxed.wrapBareBody, if_neg (by simp [notBare])]
  exact ⟨rest, rfl⟩

theorem normalizeBoldly (begins : BeginsPath text) :
    BeginsPath (normalizeBoldly text) := by
  have words := begins.normalize.mapCode fun _ begins => begins.repairWords
  exact words.insertMissingCommas.wrapBareBody.mapCode
    fun _ begins => begins.dropDanglingCommas

theorem read_eq (begins : BeginsPath text) :
    Json.read text = .error (.mistake ⟨.valueExpected, text⟩) := by
  obtain ⟨rest, rfl⟩ := begins
  have token : Json.nextToken 'z' ('.' :: rest) = (.unknown, []) := rfl
  rw [Json.read, Json.lexemes, if_neg (by decide), token]
  · rfl
  · simp

/-- Neither pass turns a path into data. -/
theorem decode_eq (begins : BeginsPath text) :
    ∃ detail, decode text = .error (.malformed detail) := by
  have cleaned := begins.stripComments
  have visible : ¬ allBlank text = true := by
    obtain ⟨rest, rfl⟩ := begins
    rw [allBlank, List.all_cons]
    simp [show isBlank 'z' = false by decide]
  rw [decode, if_neg visible, decodeClean, cleaned.normalize.read_eq]
  simp only [cleaned.normalizeBoldly.read_eq]
  exact ⟨_, rfl⟩

end BeginsPath

end Relaxed

namespace Source

end Source

namespace Document

end Document

namespace Command

end Command

end TwinSchema
