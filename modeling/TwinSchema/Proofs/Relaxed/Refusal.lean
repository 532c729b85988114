import TwinSchema.Proofs.Relaxed.Integers
import TwinSchema.Proofs.Text.Word

/-!
# Integers under the second pass

Nor does the second pass make integers. So a document that is refused because of
an integer of too many digits holds such an integer, and it stands in the text
without its comments.
-/

namespace TwinSchema.Relaxed

open Json Text

theorem plain_of_isNamePart {char : Char} (part : isNamePart char = true) :
    char ≠ '"' ∧ char ≠ '\\' ∧ precedesValue char = false := by
  have apart {other : Char} (noPart : isNamePart other = false) : char ≠ other := by
    rintro rfl
    rw [part] at noPart
    cases noPart
  refine ⟨apart rfl, apart rfl, ?_⟩
  simp only [precedesValue, isBlank_of_isNamePart part, Bool.false_or,
    Bool.or_eq_false_iff, beq_eq_false_iff_ne]
  exact ⟨⟨⟨apart rfl, apart rfl⟩, apart rfl⟩, apart rfl⟩

theorem isNamePart_of_isDigit {char : Char} (digit : Json.isDigit char = true) :
    isNamePart char = true := by
  apply isNamePart_of_isAlphanum
  have same : char.isDigit = true := digit
  rw [Char.isAlphanum, same, Bool.or_true]

/-- Behind a character between words a scan is settled. -/
theorem settled_advance {char : Char} (ends : isNamePart char = false)
    (scan : NumberScan) : Settled (scan.advance char) := by
  have noDigit : Json.isDigit char = false := by
    rw [Bool.eq_false_iff]
    intro digit
    rw [isNamePart_of_isDigit digit] at ends
    cases ends
  have noMark : ¬(char = 'e' ∨ char = 'E') := by
    rintro (rfl | rfl) <;> cases ends
  have other : Settled (.afterOther char) := by
    rw [NumberScan.afterOther]
    split <;> exact trivial
  cases scan with
  | apart =>
      rw [NumberScan.advance, if_neg (by simp [noDigit])]
      split
      next => exact trivial
      next => exact other
  | minus =>
      rw [NumberScan.advance, if_neg (by simp [noDigit])]
      exact other
  | whole =>
      simp only [NumberScan.advance, noDigit, noMark, Bool.false_eq_true, if_false]
      split
      next => exact trivial
      next => exact other
  | mark =>
      rw [NumberScan.advance]
      split
      next => exact trivial
      next => exact other
  | point | power | word => exact other

/-- Inside a word a scan finds nothing. -/
theorem strictIntegers_parts {word : List Char}
    (parts : ∀ char ∈ word, isNamePart char = true) (text : List Char) :
    strictIntegers .code .word (word ++ text) = strictIntegers .code .word text := by
  induction word with
  | nil => rfl
  | cons char word ih =>
      obtain ⟨part, others⟩ := List.forall_mem_cons.mp parts
      obtain ⟨noQuote, -, inside⟩ := plain_of_isNamePart part
      have code : char ∉ ['"'] := by simpa using noQuote
      have ended : NumberScan.word.ended (some char) = [] := by
        simp [NumberScan.ended, NumberScan.integer?]
      have next : NumberScan.word.advance char = .word := by
        rw [NumberScan.advance, NumberScan.afterOther, if_neg (by simp [inside])]
      rw [List.cons_append, strictIntegers, integersFrom_code code, ended, next]
      exact ih others

theorem isDigit_of_isNameStart {char : Char} (start : isNameStart char = true) :
    Json.isDigit char = false := by
  rw [Bool.eq_false_iff]
  intro digit
  have range : 48 ≤ char.toNat ∧ char.toNat ≤ 57 := by
    simpa [Json.isDigit, Char.le_def, UInt32.le_iff_toNat_le] using digit
  simp only [isNameStart, Bool.or_eq_true, beq_iff_eq] at start
  rcases start with (letter | rfl) | rfl
  · have := range_of_isAlpha letter
    omega
  · cases digit
  · cases digit

theorem strictIntegers_name {name : List Char} (named : isName name = true)
    {scan : NumberScan} (settled : Settled scan) (text : List Char) :
    strictIntegers .code scan (name ++ text) =
      scan.integer?.toList ++ strictIntegers .code .word text := by
  obtain ⟨first, rest, rfl, start, parts⟩ := exists_of_isName named
  have noDigit := isDigit_of_isNameStart start
  obtain ⟨noQuote, -, inside⟩ := plain_of_isNamePart (isNamePart_of_isNameStart start)
  have code : first ∉ ['"'] := by simpa using noQuote
  have noMinus : first ≠ '-' := by
    rintro rfl
    cases start
  have next : scan.advance first = .word := by
    cases scan with
    | whole | mark => cases settled
    | _ =>
        simp [NumberScan.advance, NumberScan.afterOther, noDigit, noMinus, inside]
  have ended : scan.ended (some first) = scan.integer?.toList := by
    cases scan with
    | whole | mark => cases settled
    | _ => simp [NumberScan.ended, NumberScan.goesOn, noDigit]
  rw [List.cons_append, strictIntegers, integersFrom_code code, ended, next]
  exact congrArg (scan.integer?.toList ++ ·) (strictIntegers_parts parts text)

/-- In a literal a scan finds nothing. -/
theorem strictIntegers_quoted {body : List Char}
    (parts : ∀ char ∈ body, isNamePart char = true) (text : List Char) :
    strictIntegers (.literal '"') .word (body ++ '"' :: text) =
      strictIntegers .code .word text := by
  induction body with
  | nil => exact integersFrom_closing _ _ (by decide)
  | cons char body ih =>
      obtain ⟨part, others⟩ := List.forall_mem_cons.mp parts
      obtain ⟨noQuote, noEscape, -⟩ := plain_of_isNamePart part
      rw [List.cons_append, strictIntegers, integersFrom_body _ _ noEscape noQuote]
      exact ih others

theorem after_quoted {body : List Char}
    (parts : ∀ char ∈ body, isNamePart char = true) :
    (Cursor.literal '"').after ['"'] (body ++ ['"']) = .code := by
  induction body with
  | nil => rfl
  | cons char body ih =>
      obtain ⟨part, others⟩ := List.forall_mem_cons.mp parts
      obtain ⟨noQuote, noEscape, -⟩ := plain_of_isNamePart part
      have stays : (Cursor.literal '"').advance ['"'] char = .literal '"' := by
        simp [Cursor.advance, noEscape, noQuote]
      rw [List.cons_append, Cursor.after, List.foldl_cons, stays]
      exact ih others

/-- A change of words that makes no integers, whatever comes behind a word. -/
structure SparesWords (change : (word following : List Char) → List Char) : Prop where
  closed : ∀ {word}, (∀ char ∈ word, isNamePart char = true) → ∀ following,
    Cursor.code.after ['"'] (change word following) = .code
  integers : ∀ {word}, (∀ char ∈ word, isNamePart char = true) →
    ∀ scan, Settled scan → ∀ {changed following},
      (∀ next, strictIntegers .code next changed ⊆ strictIntegers .code next following) →
        strictIntegers .code scan (change word following ++ changed) ⊆
          strictIntegers .code scan (word ++ following)

/-- Respelling foreign literals makes no integers. -/
theorem sparesWords_respellWord : SparesWords respellWord where
  closed parts following := after_code (notMem_respellWord parts following)
  integers {word} parts scan settled changed following subset := by
    rcases respellWord_cases word following with same | ⟨before, after⟩
    · rw [same]
      exact strictIntegers_append_subset (notMem_of_forall parts rfl) subset scan
    · rw [strictIntegers_name after settled, strictIntegers_name before settled]
      exact List.append_subset.mpr ⟨List.subset_append_left _ _,
        List.subset_append_of_subset_right _ (subset .word)⟩

/-- Quoting words makes no integers. -/
theorem sparesWords_quoteWord : SparesWords quoteWord where
  closed {word} parts following := by
    rw [quoteWord]
    split
    next => exact after_quoted parts
    next => exact after_code (notMem_of_forall parts rfl)
  integers {word} parts scan settled changed following subset := by
    rw [quoteWord]
    split
    next quoted =>
      rw [Bool.and_eq_true] at quoted
      have named : isName word = true := by
        cases word with
        | nil => cases quoted.1
        | cons first rest =>
            rw [isName, Bool.and_eq_true, List.all_eq_true]
            exact ⟨quoted.1, (List.forall_mem_cons.mp parts).2⟩
      have whole : '"' :: word ++ ['"'] ++ changed = '"' :: (word ++ '"' :: changed) := by
        simp
      rw [strictIntegers_name named settled, whole, strictIntegers_quote,
        strictIntegers_quoted parts]
      exact List.append_subset.mpr ⟨List.subset_append_left _ _,
        List.subset_append_of_subset_right _ (subset .word)⟩
    next => exact strictIntegers_append_subset (notMem_of_forall parts rfl) subset scan

namespace SparesWords

variable {change : (word following : List Char) → List Char}
  (spares : SparesWords change)

include spares

/-- A change of every word makes no integers when it makes none of one. -/
theorem mapWords_subset {code : List Char} (noQuote : '"' ∉ code) (scan : NumberScan)
    (apart : Settled scan ∨ Stops isNamePart code) :
    strictIntegers .code scan (mapWords change code) ⊆
      strictIntegers .code scan code := by
  fun_induction Relaxed.mapWords change code generalizing scan with
  | case1 => exact List.Subset.refl _
  | case2 char rest part ih =>
      have settled : Settled scan := by
        refine apart.resolve_right fun stops => ?_
        rw [stops char (by simp)] at part
        cases part
      have later (next : NumberScan) :=
        ih (notMem_dropWhile noQuote) next (.inr (stops_dropWhile isNamePart rest))
      have whole : char :: rest =
          char :: rest.takeWhile isNamePart ++ rest.dropWhile isNamePart := by
        rw [List.cons_append, List.takeWhile_append_dropWhile]
      have subset := spares.integers (parts_takeWhile part rest) scan settled later
      rwa [← whole] at subset
  | case3 char rest ends ih =>
      rw [List.mem_cons, not_or] at noQuote
      have settled := settled_advance (by simpa using ends) scan
      exact strictIntegers_cons_subset (Ne.symm noQuote.1)
        (ih noQuote.2 _ (.inl settled))

theorem mapWords_closed {code : List Char} (noQuote : '"' ∉ code) :
    Cursor.code.after ['"'] (mapWords change code) = .code := by
  fun_induction Relaxed.mapWords change code with
  | case1 => rfl
  | case2 char rest part ih =>
      rw [Cursor.after_append, spares.closed (parts_takeWhile part rest)]
      exact ih (notMem_dropWhile noQuote)
  | case3 char rest ends ih =>
      rw [List.mem_cons, not_or] at noQuote
      have stays : Cursor.code.advance ['"'] char = .code := by
        simp [Cursor.advance, Ne.symm noQuote.1]
      rw [Cursor.after, List.foldl_cons, stays]
      exact ih noQuote.2

theorem mapWords : Spares (mapWords change) where
  empty := by rw [Relaxed.mapWords]
  closed noQuote := spares.mapWords_closed noQuote
  integers noQuote scan settled := spares.mapWords_subset noQuote scan (.inl settled)

end SparesWords

theorem spares_repairWords : Spares repairWords where
  empty := by
    rw [repairWords, sparesWords_respellWord.mapWords.empty,
      sparesWords_quoteWord.mapWords.empty]
  closed noQuote :=
    sparesWords_quoteWord.mapWords.closed (notMem_mapWords_respellWord noQuote)
  integers noQuote scan settled :=
    List.Subset.trans
      (sparesWords_quoteWord.mapWords.integers (notMem_mapWords_respellWord noQuote)
        scan settled)
      (sparesWords_respellWord.mapWords.integers noQuote scan settled)

/-! ## Missing commas -/

theorem commaBeforeBreak_ne_nil {gap : List Char} (nonempty : gap ≠ []) :
    commaBeforeBreak gap ≠ [] := by
  cases gap with
  | nil => exact absurd rfl nonempty
  | cons char gap =>
      rw [commaBeforeBreak]
      split <;> simp

theorem mem_commaBeforeBreak {gap : List Char} {char : Char}
    (member : char ∈ commaBeforeBreak gap) : char = ',' ∨ char ∈ gap := by
  induction gap with
  | nil => cases member
  | cons first gap ih =>
      rw [commaBeforeBreak] at member
      split at member
      next => exact List.mem_cons.mp member
      next =>
        rcases List.mem_cons.mp member with rfl | later
        · exact .inr List.mem_cons_self
        · exact (ih later).imp id (List.mem_cons_of_mem _)

/-- A gap stays as it is, or it is one still when it has its comma. -/
theorem separatedGap_cases (previous : Option Char) {gap : List Char}
    (blank : ∀ char ∈ gap, isBlank char = true) (next : Option Cell) :
    separatedGap previous gap next = gap ∨
      gap ≠ [] ∧ separatedGap previous gap next ≠ [] ∧
        ∀ char ∈ separatedGap previous gap next, precedesValue char = true := by
  have precedes {char : Char} (found : char = ',' ∨ char ∈ gap) :
      precedesValue char = true := by
    rcases found with rfl | inside
    · rfl
    · simp [precedesValue, blank char inside]
  cases previous with
  | none => exact .inl rfl
  | some last =>
      cases next with
      | none => exact .inl rfl
      | some cell =>
          simp only [separatedGap]
          split
          next lost =>
            have nonempty : gap ≠ [] := by
              rintro rfl
              exact absurd lost.1 (by simp)
            split
            next =>
              exact .inr ⟨nonempty, by simp, fun char member =>
                precedes (List.mem_cons.mp member)⟩
            next =>
              exact .inr ⟨nonempty, commaBeforeBreak_ne_nil nonempty,
                fun char member => precedes (mem_commaBeforeBreak member)⟩
          next => exact .inl rfl

theorem strictIntegers_separatedGap (previous : Option Char) {gap : List Char}
    (blank : ∀ char ∈ gap, isBlank char = true) (next : Option Cell)
    {text other : List Char}
    (subset : ∀ scan, strictIntegers .code scan text ⊆ strictIntegers .code scan other)
    (scan : NumberScan) :
    strictIntegers .code scan (separatedGap previous gap next ++ text) ⊆
      strictIntegers .code scan (gap ++ other) := by
  have precedes : ∀ char ∈ gap, precedesValue char = true := by
    intro char member
    simp [precedesValue, blank char member]
  rcases separatedGap_cases previous blank next with same | ⟨nonempty, longer, signs⟩
  · rw [same]
    refine strictIntegers_append_subset ?_ subset scan
    intro member
    cases blank _ member
  · rw [strictIntegers_gap longer signs, strictIntegers_gap nonempty precedes]
    exact List.append_subset.mpr ⟨List.subset_append_left _ _,
      List.subset_append_of_subset_right _ (subset .apart)⟩

/-- Restoring commas makes no integers, where `pending` is the gap so far. -/
theorem strictIntegers_layFrom {cursor : Cursor} {pending : List Char}
    (blank : ∀ char ∈ pending, isBlank char = true)
    (inside : cursor ≠ .code → pending = []) (previous : Option Char)
    (scan : NumberScan) (text : List Char) :
    strictIntegers cursor scan
        (missingCommas.layFrom previous pending (cells ['"'] cursor text)) ⊆
      strictIntegers cursor scan (pending.reverse ++ text) := by
  induction text generalizing cursor pending previous scan with
  | nil =>
      have same : missingCommas.layFrom previous pending [] = pending.reverse := by
        cases previous <;> rfl
      rw [cells, same, List.append_nil]
      exact List.Subset.refl _
  | cons char rest ih =>
      cases cursor with
      | code =>
          by_cases quote : char = '"'
          · have later := @ih (.literal '"') [] (by simp)
              (fun _ => rfl) (some '"') .word
            have marked : cells ['"'] .code ('"' :: rest) =
                ⟨'"', true⟩ :: cells ['"'] (.literal '"') rest := rfl
            rw [quote, marked, Spacing.layFrom, if_neg (by decide)]
            refine strictIntegers_separatedGap previous (by simpa using blank) _ ?_ scan
            intro next
            rw [strictIntegers_quote, strictIntegers_quote]
            exact List.append_subset.mpr ⟨List.subset_append_left _ _,
              List.subset_append_of_subset_right _ later⟩
          · have stays : Cursor.code.advance ['"'] char = .code := by
              simp [Cursor.advance, quote]
            have marked : cells ['"'] .code (char :: rest) =
                ⟨char, false⟩ :: cells ['"'] .code rest := by
              simp [cells, stays]
            rw [marked, Spacing.layFrom]
            by_cases gap : isBlank char = true
            · have later := @ih .code (char :: pending)
                (List.forall_mem_cons.mpr ⟨gap, blank⟩) (fun no => absurd rfl no)
                previous scan
              rw [if_pos (by simp [Cell.isGap, gap])]
              simpa using later
            · rw [if_neg (by simp [Cell.isGap, gap])]
              refine strictIntegers_separatedGap previous (by simpa using blank) _ ?_ scan
              intro next
              exact strictIntegers_cons_subset quote
                (ih (by simp) (fun _ => rfl) (some char) _)
      | literal | escape =>
          have noGap (next : Option Cell) : missingCommas.gap previous [] next = [] :=
            (separatedGap_cases previous (by simp) next).resolve_right
              fun longer => longer.1 rfl
          rw [inside (by simp), cells, Spacing.layFrom, if_neg (by simp [Cell.isGap]),
            List.reverse_nil, noGap]
          exact ih (by simp) (fun _ => rfl) (some char) .word

theorem strictIntegers_insertMissingCommas (text : List Char) :
    strictIntegers .code .apart (insertMissingCommas text) ⊆
      strictIntegers .code .apart text :=
  strictIntegers_layFrom (by simp) (fun _ => rfl) none .apart text

/-- A closing brace at the end of a text makes no integers. -/
theorem strictIntegers_append_brace (cursor : Cursor) (scan : NumberScan)
    (text : List Char) :
    strictIntegers cursor scan (text ++ ['\x7d']) ⊆ strictIntegers cursor scan text := by
  induction text generalizing cursor scan with
  | nil =>
      have nothing (next : Cursor) : strictIntegers next .word [] = [] := by
        cases next <;> rfl
      cases cursor with
      | code =>
          rw [List.nil_append, strictIntegers_other (by decide) (by decide)]
          exact List.append_subset.mpr ⟨List.Subset.refl _, List.nil_subset _⟩
      | literal quote =>
          have none : strictIntegers (.literal quote) scan ['\x7d'] = [] := nothing _
          rw [List.nil_append, none]
          exact List.nil_subset _
      | escape => exact List.nil_subset _
  | cons char rest ih =>
      cases cursor with
      | code =>
          by_cases quote : char = '"'
          · rw [quote, List.cons_append, strictIntegers_quote, strictIntegers_quote]
            exact List.append_subset.mpr ⟨List.subset_append_left _ _,
              List.subset_append_of_subset_right _ (ih _ .word)⟩
          · exact strictIntegers_cons_subset quote (ih .code _)
      | literal | escape => exact ih _ .word

theorem strictIntegers_wrapBareBody (text : List Char) :
    strictIntegers .code .apart (wrapBareBody text) ⊆
      strictIntegers .code .apart text := by
  rw [wrapBareBody]
  split
  next =>
    rw [List.cons_append, strictIntegers_other (by decide) (by decide)]
    exact strictIntegers_append_brace .code .apart text
  next => exact List.Subset.refl _

/-! ## Refusals -/

/-- The second pass makes no integers. -/
theorem strictIntegers_normalizeBoldly (text : List Char) :
    strictIntegers .code .apart (normalizeBoldly text) ⊆
      integersFrom documentQuotes .code .apart text := by
  rw [normalizeBoldly]
  exact List.Subset.trans (spares_dropDanglingCommas.mapCode _)
    (List.Subset.trans (strictIntegers_wrapBareBody _)
      (List.Subset.trans (strictIntegers_insertMissingCommas _)
        (List.Subset.trans (spares_repairWords.mapCode _)
          (strictIntegers_normalize text))))

/-- A document is refused for an integer of too many digits only when it holds
one. -/
theorem exists_of_longInteger {text : List Char} {digits : Nat}
    (refused : decode text = .error (.longInteger digits)) :
    ∃ literal : IntegerLiteral documentQuotes (stripComments documentQuotes text),
      integerDigitLimit < literal.digits.length := by
  have found (text cleaned : List Char)
      (subset : strictIntegers .code .apart text ⊆
        integersFrom documentQuotes .code .apart cleaned)
      (stopped : Json.read text = .error (.longInteger digits)) :
      ∃ literal : IntegerLiteral documentQuotes cleaned,
        integerDigitLimit < literal.digits.length := by
    obtain ⟨long, member⟩ := mem_integersFrom_read stopped
    obtain ⟨literal, same⟩ := exists_of_mem_integers (subset member)
    exact ⟨literal, same ▸ long⟩
  rw [decode] at refused
  split at refused
  next => cases refused
  next =>
    simp only [decodeClean] at refused
    split at refused
    next => cases refused
    next stopped =>
      cases refused
      exact found _ _ (strictIntegers_normalize _) stopped
    next =>
      split at refused
      next => cases refused
      next stopped =>
        cases refused
        exact found _ _ (strictIntegers_normalizeBoldly _) stopped
      next => cases refused

/-- No integer literal of a relaxed document has too many digits to be read.
Comments and quoted literals hold no integers. -/
def ShortIntegers (text : List Char) : Prop :=
  ∀ literal : IntegerLiteral documentQuotes (stripComments documentQuotes text),
    literal.digits.length ≤ integerDigitLimit

theorem ShortIntegers.decode_ne {text : List Char} (short : ShortIntegers text)
    (digits : Nat) : decode text ≠ .error (.longInteger digits) := by
  intro refused
  obtain ⟨literal, long⟩ := exists_of_longInteger refused
  have := short literal
  omega

theorem shortIntegers_of_length {text : List Char}
    (few : (stripComments documentQuotes text).length ≤ integerDigitLimit) :
    ShortIntegers text := by
  intro literal
  have whole := congrArg List.length literal.whole
  simp only [List.length_append] at whole
  omega

end TwinSchema.Relaxed
