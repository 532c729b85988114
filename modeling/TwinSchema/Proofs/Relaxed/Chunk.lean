import TwinSchema.Proofs.Text.Literal
import TwinSchema.Proofs.Text.Visible
import TwinSchema.Relaxed.Chunk

/-!
# Code between literals

How a text falls into chunks: code up to the next literal, the literal, and
whatever follows it. A change of code acts on each part by itself.
-/

namespace TwinSchema.Relaxed

open Text

attribute [local simp] splitFrom

variable {change : List Char → List Char} {code body : List Char}

theorem splitFrom_code (noQuote : '"' ∉ code) :
    splitFrom .code code = (code, []) := by
  induction code with
  | nil => rfl
  | cons char code ih =>
      rw [List.mem_cons, not_or] at noQuote
      simp [ih noQuote.2, Ne.symm noQuote.1]

theorem splitFrom_code_append (noQuote : '"' ∉ code) (rest : List Char) :
    splitFrom .code (code ++ rest) =
      (code ++ (splitFrom .code rest).1, (splitFrom .code rest).2) := by
  induction code with
  | nil => rfl
  | cons char code ih =>
      rw [List.mem_cons, not_or] at noQuote
      simp [ih noQuote.2, Ne.symm noQuote.1]

/-- Inside a literal, a scan for chunks goes on to the closing quote. -/
theorem splitFrom_body (inside : LiteralBody '"' body) (rest : List Char) :
    splitFrom .literal (body ++ '"' :: rest) =
      (body ++ ['"'], Chunk.consCode (splitFrom .code rest).1
        (splitFrom .code rest).2) := by
  induction inside with
  | nil => simp
  | plain notEscape notQuote _ ih =>
      simp [notEscape, notQuote, ih]
  | escaped _ ih => simp [ih]

theorem flatMap_consCode (empty : change [] = []) (chunks : List Chunk) :
    (Chunk.consCode code chunks).flatMap (Chunk.mapCode change) =
      change code ++ chunks.flatMap (Chunk.mapCode change) := by
  cases code with
  | nil => simp [Chunk.consCode, empty]
  | cons char code => simp [Chunk.consCode, Chunk.mapCode]

theorem mapCode_code (empty : change [] = []) (noQuote : '"' ∉ code) :
    mapCode change code = change code := by
  simp [mapCode, splitChunks, splitFrom_code noQuote, flatMap_consCode empty]

theorem mapCode_literal (change : List Char → List Char) (empty : change [] = [])
    (noQuote : '"' ∉ code) (inside : LiteralBody '"' body) (rest : List Char) :
    mapCode change (code ++ ('"' :: body ++ '"' :: rest)) =
      change code ++ ('"' :: body ++ '"' :: mapCode change rest) := by
  have split : splitFrom .code ('"' :: (body ++ '"' :: rest)) =
      ([], .literal ('"' :: body ++ ['"']) ::
        Chunk.consCode (splitFrom .code rest).1 (splitFrom .code rest).2) := by
    simp [splitFrom_body inside]
  simp [mapCode, splitChunks, splitFrom_code_append noQuote, split,
    flatMap_consCode empty, Chunk.mapCode, -splitFrom]

theorem flatMap_text_consCode (code : List Char) (chunks : List Chunk) :
    (Chunk.consCode code chunks).flatMap Chunk.text = code ++ chunks.flatMap Chunk.text := by
  cases code with
  | nil => rfl
  | cons char code => rfl

theorem flatMap_text_splitFrom (inside : Inside) (text : List Char) :
    (splitFrom inside text).1 ++ (splitFrom inside text).2.flatMap Chunk.text = text := by
  fun_induction splitFrom inside text with
  | case1 => rfl
  | case4 rest code chunks same ih =>
      rw [same] at ih
      rw [flatMap_text_consCode, ih]
      rfl
  | _ => simp_all [Chunk.text]

theorem flatMap_text_splitChunks (text : List Char) :
    (splitChunks text).flatMap Chunk.text = text := by
  rw [splitChunks, flatMap_text_consCode, flatMap_text_splitFrom]

/-- The code in front of the first literal. -/
def leadingCode (text : List Char) : List Char := text.takeWhile fun char => char != '"'

/-- The text from the first literal on. -/
def behindCode (text : List Char) : List Char := text.dropWhile fun char => char != '"'

theorem leadingCode_append_behindCode (text : List Char) :
    leadingCode text ++ behindCode text = text :=
  List.takeWhile_append_dropWhile

theorem noQuote_leadingCode (text : List Char) : '"' ∉ leadingCode text := by
  intro member
  have code := List.all_eq_true.mp List.all_takeWhile _ member
  cases code

theorem behindCode_cases (text : List Char) :
    behindCode text = [] ∨ ∃ rest, behindCode text = '"' :: rest := by
  cases same : behindCode text with
  | nil => exact .inl rfl
  | cons char rest =>
      have stops := stops_dropWhile (fun char => char != '"') text char
      rw [← behindCode, same] at stops
      have quote : char = '"' := by simpa using stops rfl
      exact .inr ⟨rest, by rw [quote]⟩

/-- The code in front is changed apart from what follows it. -/
theorem mapCode_eq (empty : change [] = []) (text : List Char) :
    mapCode change text =
      change (leadingCode text) ++ mapCode change (behindCode text) := by
  have split := splitFrom_code_append (noQuote_leadingCode text) (behindCode text)
  have none : (splitFrom .code (behindCode text)).1 = [] := by
    rcases behindCode_cases text with same | ⟨rest, same⟩ <;>
      simp [same]
  rw [leadingCode_append_behindCode, none, List.append_nil] at split
  rw [mapCode, splitChunks, split, flatMap_consCode empty, mapCode, splitChunks,
    flatMap_consCode empty, none, empty, List.nil_append]

/-- What a change of code makes of the rest of a literal and of what follows. -/
def mapFrom (change : List Char → List Char) (inside : Inside) (text : List Char) :
    List Char :=
  (splitFrom inside text).1 ++
    (splitFrom inside text).2.flatMap (Chunk.mapCode change)

theorem mapCode_quote (change : List Char → List Char) (rest : List Char) :
    mapCode change ('"' :: rest) = '"' :: mapFrom change .literal rest := by
  simp [mapCode, splitChunks, Chunk.consCode, Chunk.mapCode, mapFrom]

theorem mapFrom_close (empty : change [] = []) (rest : List Char) :
    mapFrom change .literal ('"' :: rest) = '"' :: mapCode change rest := by
  simp [mapFrom, flatMap_consCode empty, mapCode, splitChunks]

theorem mapFrom_inside (change : List Char → List Char) {char : Char}
    (noQuote : char ≠ '"') (rest : List Char) :
    mapFrom change .literal (char :: rest) =
      char :: mapFrom change (if char = '\\' then .escape else .literal) rest := by
  simp [mapFrom, noQuote]

theorem mapFrom_escape (change : List Char → List Char) (char : Char)
    (rest : List Char) :
    mapFrom change .escape (char :: rest) = char :: mapFrom change .literal rest := by
  simp [mapFrom]

section Composition

variable {first second : List Char → List Char} (emptyFirst : first [] = [])
  (emptySecond : second [] = [])
  (noQuote : ∀ code, '"' ∉ code → '"' ∉ first code)

include emptyFirst emptySecond noQuote

/-- Two changes of code, one after the other, up to the first literal. -/
theorem mapCode_mapCode_of_literal {text : List Char}
    (literal : ∀ rest, behindCode text = '"' :: rest →
      mapFrom second .literal (mapFrom first .literal rest) =
        mapFrom (fun code => second (first code)) .literal rest) :
    mapCode second (mapCode first text) =
      mapCode (fun code => second (first code)) text := by
  have emptyBoth : (fun code => second (first code)) [] = [] := by
    simp only [emptyFirst, emptySecond]
  have inFront := noQuote _ (noQuote_leadingCode text)
  have plain : ∀ char ∈ first (leadingCode text), (char != '"') = true := by
    intro char member
    simpa using fun quote : char = '"' => inFront (quote ▸ member)
  rw [mapCode_eq emptyFirst text, mapCode_eq emptyBoth text]
  rcases behindCode_cases text with same | ⟨rest, same⟩
  · have nothing : ∀ change, mapCode change [] = [] := fun _ => rfl
    rw [same, nothing, nothing, List.append_nil, List.append_nil,
      mapCode_code emptySecond inFront]
  · have stops : Stops (fun char => char != '"') ('"' :: mapFrom first .literal rest) :=
      stops_cons rfl
    have front : leadingCode (first (leadingCode text) ++
        '"' :: mapFrom first .literal rest) = first (leadingCode text) :=
      takeWhile_run plain stops
    have back : behindCode (first (leadingCode text) ++
        '"' :: mapFrom first .literal rest) = '"' :: mapFrom first .literal rest :=
      dropWhile_run plain stops
    rw [same, mapCode_quote, mapCode_eq emptySecond, front, back, mapCode_quote,
      mapCode_quote, literal rest same]

/-- Two changes of code, one after the other, where the first one makes no
literals. -/
theorem mapCode_mapCode (text : List Char) :
    mapCode second (mapCode first text) =
        mapCode (fun code => second (first code)) text ∧
      ∀ inside, inside ≠ .code →
        mapFrom second inside (mapFrom first inside text) =
          mapFrom (fun code => second (first code)) inside text := by
  induction length : text.length using Nat.strongRecOn generalizing text with
  | _ size ih =>
  constructor
  · apply mapCode_mapCode_of_literal emptyFirst emptySecond noQuote
    intro rest same
    have whole := congrArg List.length (leadingCode_append_behindCode text)
    rw [same, List.length_append, List.length_cons] at whole
    exact (ih rest.length (by omega) rest rfl).2 .literal nofun
  · intro inside outside
    cases text with
    | nil => cases inside <;> rfl
    | cons char rest =>
        rw [List.length_cons] at length
        obtain ⟨code, literal⟩ := ih rest.length (by omega) rest rfl
        cases inside with
        | code => exact absurd rfl outside
        | literal =>
            by_cases quote : char = '"'
            · rw [quote, mapFrom_close emptyFirst, mapFrom_close emptySecond,
                mapFrom_close (by simp only [emptyFirst, emptySecond]), code]
            · rw [mapFrom_inside _ quote, mapFrom_inside _ quote,
                mapFrom_inside _ quote, literal _ (by split <;> exact nofun)]
        | escape =>
            rw [mapFrom_escape, mapFrom_escape, mapFrom_escape,
              literal .literal nofun]

end Composition

end TwinSchema.Relaxed
