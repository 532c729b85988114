import TwinSchema.Proofs.Relaxed.Accepted
import TwinSchema.Proofs.Relaxed.Wear

/-!
# Worn documents

Whatever commas a written document has lost, and however its named values are
spelled, it is decoded as the value that was written: either nothing was lost and
respelled, or the first pass rejects the document and the second one restores it.
-/

namespace TwinSchema.Relaxed

open Json Text

/-- Nothing is read beyond a foreign name. -/
theorem lexemes_foreign {strict foreign : List Char}
    (spelling : (strict, foreign) ∈ foreignSpellings) (rest : List Char) :
    lexemes (foreign ++ rest) = [⟨.unknown, foreign ++ rest⟩] := by
  have ended {char : Char} (visible : isSeparator char = false) {rest : List Char}
      (unknown : nextToken char rest = (.unknown, [])) :
      lexemes (char :: rest) = [⟨.unknown, char :: rest⟩] := by
    rw [lexemes_cons visible, unknown, lexemes]
  rcases foreignSpellings_cases spelling with
    ⟨-, rfl⟩ | ⟨-, rfl⟩ | ⟨-, rfl⟩ | ⟨-, rfl⟩ <;>
    exact ended rfl rfl

/-- A text is read up to its closing quote, or nothing is read beyond it. -/
theorem nextToken_body {body : List Char} (inside : LiteralBody '"' body)
    (rest : List Char) :
    (∃ text, nextToken '"' (body ++ '"' :: rest) = (.text text, rest)) ∨
      ∃ mistake, nextToken '"' (body ++ '"' :: rest) = (.brokenText mistake, []) := by
  cases read : readUnits ('"' :: (body ++ '"' :: rest)) (body ++ '"' :: rest) with
  | error mistake => exact .inr ⟨mistake, by simp only [nextToken, read]⟩
  | ok pair =>
      obtain ⟨units, after⟩ := pair
      obtain ⟨other, same, closed⟩ := exists_body_of_readUnits read
      obtain ⟨-, rfl⟩ := inside.unique (by decide) closed same
      exact .inl ⟨String.ofList (joinUnits units), by simp only [nextToken, read]⟩

/-- Among ordered segments the reader meets no integer of too many digits, as far as
it gets: a text that it rejects and a foreign name end its tokens. -/
theorem token_ne_longInteger {spot : Spot} {segments : List Segment}
    (ordered : Ordered spot segments) (digits : Nat) :
    ∀ lexeme ∈ lexemes (segments.flatMap Segment.text),
      lexeme.token ≠ .longInteger digits := by
  induction segments generalizing spot with
  | nil => simp [lexemes]
  | cons segment segments ih =>
      obtain ⟨fits, later⟩ := ordered
      rw [List.flatMap_cons]
      cases segment with
      | blank char separates =>
          rw [Segment.text, lexemes_blanks (by simpa using separates)]
          exact ih later
      | mark sign =>
          rw [Segment.text, List.singleton_append, lexemes_mark, List.forall_mem_cons]
          exact ⟨by cases sign <;> simp [Mark.token], ih later⟩
      | literal body inside =>
          rw [Segment.text, List.append_assoc, List.cons_append,
            List.singleton_append, lexemes_cons rfl, List.forall_mem_cons]
          rcases nextToken_body inside (segments.flatMap Segment.text) with
            ⟨text, token⟩ | ⟨mistake, token⟩
          · rw [token]
            exact ⟨by simp, ih later⟩
          · rw [token, lexemes]
            exact ⟨by simp, List.forall_mem_nil _⟩
      | word meant spelled known =>
          rcases known with rfl | foreign
          · have stops : Stops isWordLetter (segments.flatMap Segment.text) :=
              stops_text later (awaitsValue_word meant)
                not_isWordLetter_of_isSeparator Mark.isWordLetter_char
            rw [Segment.text, lexemes_word meant stops, List.forall_mem_cons]
            exact ⟨by simp, ih later⟩
          · rw [Segment.text, lexemes_foreign foreign, List.forall_mem_singleton]
            simp
      | lost =>
          rw [Segment.text, lexemes_blanks (List.forall_mem_singleton.mpr rfl)]
          exact ih later

/-- An integer of too many digits stops the reader only where it stands. -/
theorem exists_long_of_run {state : State} {texts : List Lexeme} {digits : Nat}
    (stopped : state.run texts = .error (.longInteger digits)) :
    ∃ lexeme ∈ texts, lexeme.token = .longInteger digits := by
  induction texts generalizing state with
  | nil => exact absurd stopped state.run_nil_ne
  | cons lexeme rest ih =>
      rw [State.run] at stopped
      split at stopped
      next next _ =>
        obtain ⟨found, member, token⟩ := ih stopped
        exact ⟨found, List.mem_cons_of_mem lexeme member, token⟩
      next obstacle stepped =>
        cases stopped
        exact ⟨lexeme, List.mem_cons_self, (awaitsValue_of_step stepped).2⟩

section Copies

variable {worn original : List Char} {segments : List Segment} {value : Value}
variable (restores : Restores .start worn original segments)

include restores

theorem read_ne_longInteger (digits : Nat) :
    Json.read worn ≠ .error (.longInteger digits) := by
  intro stopped
  obtain ⟨lexeme, member, long⟩ := exists_long_of_run (run_of_longInteger stopped)
  rw [← restores.text_eq] at member
  exact token_ne_longInteger restores.ordered digits lexeme member long

/-- A worn copy that strict JSON accepts is not worn at all. -/
theorem eq_of_read (accepted : Json.read worn = .ok value) : worn = original := by
  obtain ⟨strict, whole⟩ := exists_restores_of_read accepted
  rw [← insertMissingCommas_of_restores restores, insertMissingCommas_of_restores whole]

/-- A worn copy of a document is decoded as the document is read. Where braces
would be put around the document the copy must be faithful. -/
theorem decode_of_restores (accepted : Json.read original = .ok value)
    (braced : isBareBody original = true → worn = original) :
    decode worn = .ok value := by
  rw [decode, allBlank_of_restores restores accepted, if_neg Bool.false_ne_true,
    stripComments_of_restores restores]
  unfold decodeClean
  simp only
  rw [normalize_of_restores restores]
  split
  next result found =>
    rw [eq_of_read restores found, accepted] at found
    rw [Except.ok.inj found]
  next digits stopped => exact absurd stopped (read_ne_longInteger restores digits)
  next mistake rejected =>
    -- A faithful copy would not have been rejected.
    have faulty : isBareBody original = false := by
      rw [Bool.eq_false_iff]
      intro bare
      rw [braced bare, accepted] at rejected
      cases rejected
    rw [normalizeBoldly_of_restores restores accepted faulty, accepted]

end Copies

theorem dropQuote_suffix (text : List Char) : dropQuote text <:+ text := by
  fun_cases dropQuote text with
  | case1 => exact List.suffix_refl _
  | case2 => exact List.suffix_cons _ _
  | case3 => exact List.suffix_refl _

theorem isBareBody_of_letters {letters : List Char}
    (word : ∀ char ∈ letters, isWordLetter char = true) :
    isBareBody letters = false := by
  rw [isBareBody]
  split
  next name rest named =>
    have tail : dropQuote rest <:+ letters :=
      (dropQuote_suffix rest).trans ((suffix_of_name? named).trans
        ((dropQuote_suffix _).trans (List.dropWhile_suffix _)))
    have noColon := colonFollows_letters (fun char member =>
      word char (tail.subset member)) (show colonFollows [] = false from rfl)
    rwa [List.append_nil] at noColon
  next => rfl

/-- Whatever commas are lost at the ends of its lines, and however its named
values are spelled, a written document is decoded as the value that was
written. -/
theorem decode_worn (step : Int) {value : Value} (proper : value.isProper = true)
    (finite : value.isFinite = true) {worn : List Char}
    (wears : Worn .code (Json.write step value) worn) : decode worn = .ok value := by
  obtain ⟨segments, restores⟩ := exists_restores_of_worn step proper finite wears
  have accepted := accepted_write step proper finite
  refine decode_of_restores restores accepted fun bare => ?_
  cases container : isContainer value with
  | true =>
      rw [isBareBody_of_read accepted container] at bare
      cases bare
  | false =>
      cases value with
      | list | record => cases container
      | scalar scalar =>
          rw [Json.write, writeValue] at wears bare ⊢
          rcases exists_word proper with ⟨text, rfl⟩ | ⟨word, written, rfl⟩
          · rw [writeScalar, ← List.append_nil (writeText text)] at wears
            obtain ⟨after, rfl, rest⟩ := wears.of_writeText
            rw [rest.eq_nil, List.append_nil, writeScalar]
          · rw [← written, isBareBody_of_letters (isWordLetter_of_mem_word word)] at bare
            cases bare

/-- Two of the commas at the ends of lines are lost, one of them behind a respelled
name; what looks alike in a text is kept. -/
theorem decode_worn_nested :
    Worn .code
        (Json.write 2 (.record [("a", .list [.null, .bool true]), ("b", .text "null,\n")]))
        "\x7b\n  \"a\": [\n    None\n    true\n  ]\n  \"b\": \"null,\\n\"\n\x7d".toList ∧
      decode "\x7b\n  \"a\": [\n    None\n    true\n  ]\n  \"b\": \"null,\\n\"\n\x7d".toList =
        .ok (.record [("a", .list [.null, .bool true]), ("b", .text "null,\n")]) := by
  have wears : Worn .code
      ("\x7b\n  \"a\": [\n    ".toList ++ ("null".toList ++ (',' :: '\n' ::
        ("    true\n  ]".toList ++ (',' :: '\n' :: "  \"b\": \"null,\\n\"\n\x7d".toList)))))
      ("\x7b\n  \"a\": [\n    ".toList ++ ("None".toList ++ ('\n' ::
        ("    true\n  ]".toList ++ ('\n' :: "  \"b\": \"null,\\n\"\n\x7d".toList))))) :=
    .behind _ (.respelled (by decide) (.lost (.kept (.behind _ (.lost (.refl _ _))))))
  have written :
      Worn .code
        (Json.write 2 (.record [("a", .list [.null, .bool true]), ("b", .text "null,\n")]))
        "\x7b\n  \"a\": [\n    None\n    true\n  ]\n  \"b\": \"null,\\n\"\n\x7d".toList :=
    wears
  exact ⟨written, decode_worn 2 (by decide) (by decide) written⟩

end TwinSchema.Relaxed
