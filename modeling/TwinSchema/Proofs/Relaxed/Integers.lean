import TwinSchema.Proofs.Json.Stopping
import TwinSchema.Proofs.Relaxed.Chunk
import TwinSchema.Proofs.Relaxed.Unquoted
import TwinSchema.Relaxed.Reader

/-!
# Integers under the regular pass

The regular pass makes no integer out of anything else: what a scan for integers
finds in a repaired document it finds in the document too. A change of code is
told chunk by chunk, and a literal ends every number before it.
-/

namespace TwinSchema.Relaxed

open Json Text

section Strict

variable {char : Char} {scan : NumberScan} {text other rest : List Char}

/-- The integers that a scan finds in strict JSON. -/
abbrev strictIntegers (cursor : Cursor) (scan : NumberScan) (text : List Char) :
    List Nat :=
  integersFrom ['"'] cursor scan text

/-- The same character of code in front of two texts. -/
theorem strictIntegers_cons_subset (noQuote : char ≠ '"')
    (subset : strictIntegers .code (scan.advance char) text ⊆
      strictIntegers .code (scan.advance char) other) :
    strictIntegers .code scan (char :: text) ⊆
      strictIntegers .code scan (char :: other) := by
  have code : char ∉ ['"'] := by simpa using noQuote
  rw [strictIntegers, strictIntegers, integersFrom_code code, integersFrom_code code]
  exact List.append_subset.mpr ⟨List.subset_append_left _ _,
    List.subset_append_of_subset_right _ subset⟩

/-- A character that is no part of a number ends one. -/
theorem strictIntegers_other (noQuote : char ≠ '"') (noNumber : isNumberChar char = false)
    (scan : NumberScan) (text : List Char) :
    strictIntegers .code scan (char :: text) =
      scan.integer?.toList ++ strictIntegers .code (.afterOther char) text := by
  have code : char ∉ ['"'] := by simpa using noQuote
  rw [strictIntegers, integersFrom_code code, NumberScan.ended_of_other noNumber,
    NumberScan.advance_of_other noNumber]

theorem strictIntegers_quote (scan : NumberScan) (text : List Char) :
    strictIntegers .code scan ('"' :: text) =
      scan.integer?.toList ++ strictIntegers (.literal '"') .word text := by
  rw [strictIntegers, integersFrom_quote (by decide),
    NumberScan.ended_of_other (by decide)]

/-- Blanks and signs end a number, and a value may follow them. -/
theorem strictIntegers_gap {gap : List Char} (nonempty : gap ≠ [])
    (precedes : ∀ char ∈ gap, precedesValue char = true) (scan : NumberScan)
    (text : List Char) :
    strictIntegers .code scan (gap ++ text) =
      scan.integer?.toList ++ strictIntegers .code .apart text := by
  induction gap generalizing scan with
  | nil => exact absurd rfl nonempty
  | cons char gap ih =>
      obtain ⟨first, others⟩ := List.forall_mem_cons.mp precedes
      have noQuote : char ≠ '"' := by
        rintro rfl
        cases first
      rw [List.cons_append,
        strictIntegers_other noQuote (isNumberChar_of_precedesValue first),
        NumberScan.afterOther, if_pos first]
      cases gap with
      | nil => rfl
      | cons next gap => rw [ih (by simp) others .apart]; rfl

/-- Behind code that a scan passes over, it finds what it found before, if that
is so for the text after the code. -/
theorem strictIntegers_append_subset {front : List Char} (noQuote : '"' ∉ front)
    (subset : ∀ scan, strictIntegers .code scan text ⊆ strictIntegers .code scan other)
    (scan : NumberScan) :
    strictIntegers .code scan (front ++ text) ⊆
      strictIntegers .code scan (front ++ other) := by
  induction front generalizing scan with
  | nil => exact subset scan
  | cons char front ih =>
      rw [List.mem_cons, not_or] at noQuote
      exact strictIntegers_cons_subset (Ne.symm noQuote.1) (ih noQuote.2 _)

end Strict

namespace Quoting

/-- Where a scan of the document stands. -/
def cursor : Quoting → Cursor
  | .outside => .code
  | .double => .literal '"'
  | .single => .literal '\''

/-- Where a scan of the strict text stands. -/
def strictCursor : Quoting → Cursor
  | .outside => .code
  | .double | .single => .literal '"'

end Quoting

/-- Literals stay literals when they are quoted anew. -/
theorem strictIntegers_requote (quoting : Quoting) (scan : NumberScan)
    (text : List Char) :
    strictIntegers quoting.strictCursor scan (requote quoting text) =
      integersFrom documentQuotes quoting.cursor scan text := by
  fun_induction requote quoting text generalizing scan with
  | case1 quoting => cases quoting <;> rfl
  | case2 rest ih => exact congrArg (scan.ended (some '"') ++ ·) (ih .word)
  | case3 rest different ih =>
      have same : scan.ended (some '\'') = scan.ended (some '"') := by
        rw [NumberScan.ended_of_other (by decide), NumberScan.ended_of_other (by decide)]
      rw [Quoting.cursor, integersFrom_quote (by decide), same]
      exact congrArg (scan.ended (some '"') ++ ·) (ih .word)
  | case4 char rest noDouble noSingle ih =>
      have strict : char ∉ ['"'] := by simpa using noDouble
      have document : char ∉ documentQuotes := by
        simpa [documentQuotes] using ⟨noDouble, noSingle⟩
      rw [Quoting.strictCursor, Quoting.cursor, strictIntegers,
        integersFrom_code strict, integersFrom_code document]
      exact congrArg (scan.ended (some char) ++ ·) (ih _)
  | case5 => rfl
  | case6 _ _ ih => exact ih .word
  | case7 _ _ ih => exact ih .word
  | case8 char rest noEscape different ih =>
      rw [Quoting.strictCursor, Quoting.cursor, strictIntegers,
        integersFrom_body _ _ noEscape different, integersFrom_body _ _ noEscape different]
      exact ih .word
  | case9 => rfl
  | case10 _ ih => exact ih .word
  | case11 _ _ _ ih => exact ih .word
  | case12 _ _ ih => exact ih .word
  | case13 _ _ _ ih => exact ih .word
  | case14 char rest noEscape noSingle noDouble ih =>
      rw [Quoting.strictCursor, Quoting.cursor, strictIntegers,
        integersFrom_body _ _ noEscape noDouble, integersFrom_body _ _ noEscape noSingle]
      exact ih .word

/-- A scan finds the same integers when every literal is in double quotes. -/
theorem strictIntegers_convertSingleQuotes (text : List Char) :
    strictIntegers .code .apart (convertSingleQuotes text) =
      integersFrom documentQuotes .code .apart text :=
  strictIntegers_requote .outside .apart text

/-! ## Changes of code -/

/-- Whether a scan stands where letters go on with no number. -/
def Settled : NumberScan → Prop
  | .whole _ | .mark _ => False
  | _ => True

/-- A change of code that makes no integers. -/
structure Spares (change : List Char → List Char) : Prop where
  empty : change [] = []
  closed : ∀ {code}, '"' ∉ code → Cursor.code.after ['"'] (change code) = .code
  integers : ∀ {code}, '"' ∉ code → ∀ scan, Settled scan →
    strictIntegers .code scan (change code) ⊆ strictIntegers .code scan code

theorem strictIntegers_closed {cursor : Cursor} {code : List Char}
    (closed : cursor.after ['"'] code = .code) (scan : NumberScan)
    (rest : List Char) :
    strictIntegers cursor scan (code ++ '"' :: rest) =
      strictIntegers cursor scan code ++ strictIntegers (.literal '"') .word rest := by
  induction code generalizing cursor scan with
  | nil =>
      obtain rfl : cursor = .code := closed
      exact strictIntegers_quote scan rest
  | cons char code ih =>
      rw [Cursor.after, List.foldl_cons] at closed
      have later := ih closed
      cases cursor with
      | code =>
          by_cases quote : char ∈ ['"']
          · rw [Cursor.advance, if_pos quote] at later
            rw [List.cons_append, strictIntegers, strictIntegers,
              integersFrom_quote quote, integersFrom_quote quote, List.append_assoc]
            exact congrArg (scan.ended (some char) ++ ·) (later .word)
          · rw [Cursor.advance, if_neg quote] at later
            rw [List.cons_append, strictIntegers, strictIntegers,
              integersFrom_code quote, integersFrom_code quote, List.append_assoc]
            exact congrArg (scan.ended (some char) ++ ·) (later _)
      | literal | escape => exact later .word

namespace Spares

variable {change : List Char → List Char} (spares : Spares change)

include spares

/-- The text that is made of chunks, from the middle of one of them on. -/
theorem splitFrom_subset (text : List Char) :
    (∀ {code}, '"' ∉ code → ∀ {scan}, Settled scan →
      strictIntegers .code scan (change (code ++ (splitFrom .code text).1) ++
          (splitFrom .code text).2.flatMap (Chunk.mapCode change)) ⊆
        strictIntegers .code scan (code ++ text)) ∧
    (strictIntegers (.literal '"') .word ((splitFrom .literal text).1 ++
        (splitFrom .literal text).2.flatMap (Chunk.mapCode change)) ⊆
      strictIntegers (.literal '"') .word text) ∧
    (strictIntegers (.escape '"') .word ((splitFrom .escape text).1 ++
        (splitFrom .escape text).2.flatMap (Chunk.mapCode change)) ⊆
      strictIntegers (.escape '"') .word text) := by
  induction text with
  | nil =>
      refine ⟨?_, List.Subset.refl _, List.Subset.refl _⟩
      intro code noQuote scan settled
      simpa [splitFrom] using spares.integers noQuote scan settled
  | cons char rest ih =>
      obtain ⟨inCode, inLiteral, inEscape⟩ := ih
      refine ⟨?_, ?_, inLiteral⟩
      · intro code noQuote scan settled
        by_cases quote : char = '"'
        · rw [splitFrom, if_pos quote, quote]
          simp only [List.append_nil, List.flatMap_cons, Chunk.mapCode,
            List.cons_append]
          rw [strictIntegers_closed (spares.closed noQuote),
            strictIntegers_closed (after_code noQuote)]
          exact List.append_subset.mpr
            ⟨List.subset_append_of_subset_left _ (spares.integers noQuote scan settled),
              List.subset_append_of_subset_right _ inLiteral⟩
        · have noQuotes : '"' ∉ code ++ [char] := by
            simpa [noQuote] using Ne.symm quote
          rw [splitFrom, if_neg quote]
          simpa only [List.append_assoc, List.cons_append, List.nil_append] using
            inCode noQuotes settled
      · by_cases quote : char = '"'
        · rw [splitFrom, if_pos quote, quote]
          simp only [List.cons_append, List.nil_append, flatMap_consCode spares.empty]
          exact @inCode [] (by simp) .word trivial
        · rw [splitFrom, if_neg quote]
          by_cases escape : char = '\\'
          · rw [if_pos escape, escape]
            exact inEscape
          · rw [if_neg escape]
            simp only [List.cons_append]
            rw [strictIntegers, strictIntegers, integersFrom_body _ _ escape quote,
              integersFrom_body _ _ escape quote]
            exact inLiteral

theorem mapCode (text : List Char) :
    strictIntegers .code .apart (mapCode change text) ⊆
      strictIntegers .code .apart text := by
  obtain ⟨inCode, -, -⟩ := spares.splitFrom_subset text
  have whole := @inCode [] (by simp) .apart trivial
  rw [Relaxed.mapCode, splitChunks, flatMap_consCode spares.empty]
  exact whole

end Spares

/-- A number that ends at a blank or a closing bracket also ends at a comma before
it. -/
theorem strictIntegers_dangling {rest : List Char} {closing : Char}
    (follows : firstVisible rest = some closing)
    (closes : closing = '\x7d' ∨ closing = ']') (scan : NumberScan) :
    strictIntegers .code scan rest ⊆ strictIntegers .code scan (',' :: rest) := by
  cases rest with
  | nil => cases follows
  | cons char rest =>
      have ends : char ≠ '"' ∧ isNumberChar char = false := by
        cases blank : isBlank char with
        | true =>
            have precedes : precedesValue char = true := by simp [precedesValue, blank]
            refine ⟨?_, isNumberChar_of_precedesValue precedes⟩
            rintro rfl
            cases blank
        | false =>
            have same : some char = some closing := by
              simpa [firstVisible, blank] using follows
            cases same
            rcases closes with rfl | rfl <;> decide
      have comma : NumberScan.afterOther ',' = .apart := rfl
      rw [strictIntegers_other ends.1 ends.2, strictIntegers_other (by decide) (by decide),
        comma, strictIntegers_other ends.1 ends.2]
      exact List.Subset.refl _

theorem strictIntegers_dropDanglingCommas {code : List Char} (noQuote : '"' ∉ code)
    (scan : NumberScan) :
    strictIntegers .code scan (dropDanglingCommas code) ⊆
      strictIntegers .code scan code := by
  fun_induction dropDanglingCommas code generalizing scan with
  | case1 => exact List.Subset.refl _
  | case2 char rest dangling ih =>
      have later := ih (fun member => noQuote (.tail _ member)) scan
      rw [dangling.1]
      rcases dangling.2 with brace | bracket
      · exact List.Subset.trans later (strictIntegers_dangling brace (.inl rfl) scan)
      · exact List.Subset.trans later (strictIntegers_dangling bracket (.inr rfl) scan)
  | case3 char rest stays ih =>
      rw [List.mem_cons, not_or] at noQuote
      exact strictIntegers_cons_subset (Ne.symm noQuote.1) (ih noQuote.2 _)

theorem spares_dropDanglingCommas : Spares dropDanglingCommas where
  empty := rfl
  closed noQuote := after_code (notMem_dropDanglingCommas noQuote)
  integers noQuote scan _ := strictIntegers_dropDanglingCommas noQuote scan

theorem plain_of_isKeyChar {char : Char} (key : isKeyChar char = true) :
    char ≠ '"' ∧ char ≠ '\\' := by
  constructor <;> rintro rfl <;> cases key

theorem precedesValue_of_colonFollows {char : Char} {rest : List Char}
    (colon : colonFollows (char :: rest) = true) : precedesValue char = true := by
  cases blank : isBlank char with
  | true => simp [precedesValue, blank]
  | false =>
      have same : char = ':' := by simpa [colonFollows, firstVisible, blank] using colon
      rw [same]
      rfl

namespace KeyScan

/-- Where a scan of the repaired text stands. -/
def cursor : KeyScan → Cursor
  | .key => .literal '"'
  | _ => .code

theorem cursor_afterChar (keyScan : KeyScan) (char : Char) :
    (keyScan.afterChar char).cursor = .code := by
  rw [afterChar]
  split
  next => rfl
  next => split <;> rfl

/-- Whether a scan for bare keys may stand before a text while a scan for integers
stands at the same place: no number ends in a slot, and every key has its
colon. -/
def Fits (scan : NumberScan) (text : List Char) : KeyScan → Prop
  | .elsewhere => True
  | .slot => scan.integer? = none
  | .key => colonFollows (text.dropWhile isKeyChar) = true

section Fitting

variable {scan : NumberScan} {char : Char} {rest : List Char}

/-- Behind a character outside of keys both scans fit again. -/
theorem fits_afterChar (keyScan : KeyScan)
    (ends : isNumberChar char = false → scan = .afterOther char) :
    (keyScan.afterChar char).Fits scan rest := by
  have noInteger (precedes : precedesValue char = true) : scan.integer? = none := by
    rw [ends (isNumberChar_of_precedesValue precedes), NumberScan.afterOther,
      if_pos precedes]
    rfl
  rw [afterChar]
  split
  next opens => exact noInteger (by rcases opens with rfl | rfl <;> rfl)
  next =>
    split
    next blank =>
      rw [Bool.and_eq_true] at blank
      exact noInteger (by simp [precedesValue, blank.1])
    next => exact trivial

/-- A key goes on to its colon. -/
theorem Fits.goOn {next : NumberScan} (fits : KeyScan.key.Fits scan (char :: rest))
    (inside : isKeyChar char = true) : KeyScan.key.Fits next rest := by
  rw [Fits, List.dropWhile_cons_of_pos inside] at fits
  exact fits

theorem Fits.precedes (fits : KeyScan.key.Fits scan (char :: rest))
    (ends : isKeyChar char = false) : precedesValue char = true := by
  rw [Fits, List.dropWhile_cons_of_neg (by simp [ends])] at fits
  exact precedesValue_of_colonFollows fits

theorem fits_of_beginsKey (begins : beginsKey (char :: rest) = true) :
    isKeyChar char = true ∧ KeyScan.key.Fits scan rest := by
  rw [beginsKey, Bool.and_eq_true] at begins
  have inside : isKeyChar char = true := begins.1
  have fits : KeyScan.key.Fits scan (char :: rest) := begins.2
  exact ⟨inside, fits.goOn inside⟩

end Fitting

end KeyScan

/-- Code that is changed from a place in a scan for keys on ends outside literals
and has no new integers. -/
structure KeyScan.Spared (keyScan : KeyScan) (scan : NumberScan)
    (changed code : List Char) : Prop where
  closed : keyScan.cursor.after ['"'] changed = .code
  integers : strictIntegers keyScan.cursor scan changed ⊆ strictIntegers .code scan code

namespace KeyScan.Spared

variable {keyScan : KeyScan} {scan : NumberScan} {char : Char}
  {changed code : List Char}

theorem inside (key : isKeyChar char = true)
    (spared : KeyScan.key.Spared (scan.advance char) changed code) :
    KeyScan.key.Spared scan (char :: changed) (char :: code) := by
  have plain := plain_of_isKeyChar key
  constructor
  · have stays : (Cursor.literal '"').advance ['"'] char = .literal '"' := by
      simp [Cursor.advance, plain]
    rw [KeyScan.cursor, Cursor.after, List.foldl_cons, stays]
    exact spared.closed
  · rw [KeyScan.cursor, strictIntegers, integersFrom_body _ _ plain.2 plain.1,
      integersFrom_literal _ _ (scan.advance char)]
    exact List.Subset.trans spared.integers (integersFrom_plain plain.1 scan code)

/-- The character after a key, before which the key is closed. -/
theorem closing (noQuote : char ≠ '"') (other : isNumberChar char = false)
    (spared : (KeyScan.key.afterChar char).Spared (.afterOther char) changed code) :
    KeyScan.key.Spared scan ('"' :: char :: changed) (char :: code) := by
  obtain ⟨closed, subset⟩ := spared
  rw [KeyScan.cursor_afterChar] at closed subset
  constructor
  · have leaves : ['"', char].foldl (Cursor.advance ['"']) (.literal '"') = .code := by
      simp [Cursor.advance, noQuote]
    exact (Cursor.after_append ['"'] (.literal '"') ['"', char] _).trans
      ((congrArg (Cursor.after ['"'] · _) leaves).trans closed)
  · rw [KeyScan.cursor, strictIntegers, integersFrom_closing _ _ (by decide),
      ← strictIntegers, strictIntegers_other noQuote other,
      strictIntegers_other noQuote other]
    exact List.append_subset.mpr ⟨List.nil_subset _,
      List.subset_append_of_subset_right _ subset⟩

/-- The first character of a key, before which the key is opened. -/
theorem opening (key : isKeyChar char = true) (noInteger : scan.integer? = none)
    (spared : KeyScan.key.Spared (scan.advance char) changed code) :
    KeyScan.slot.Spared scan ('"' :: char :: changed) (char :: code) := by
  have plain := plain_of_isKeyChar key
  constructor
  · have opens : ['"', char].foldl (Cursor.advance ['"']) .code = .literal '"' := by
      simp [Cursor.advance, plain]
    exact (Cursor.after_append ['"'] .code ['"', char] _).trans
      ((congrArg (Cursor.after ['"'] · _) opens).trans spared.closed)
  · have outside : KeyScan.slot.cursor = .code := rfl
    rw [outside, strictIntegers_quote, noInteger, strictIntegers,
      integersFrom_body _ _ plain.2 plain.1,
      integersFrom_literal _ _ (scan.advance char)]
    exact List.Subset.trans spared.integers (integersFrom_plain plain.1 scan code)

theorem outside (noKey : keyScan ≠ .key) (noQuote : char ≠ '"')
    (spared : (keyScan.afterChar char).Spared (scan.advance char) changed code) :
    keyScan.Spared scan (char :: changed) (char :: code) := by
  have standing : keyScan.cursor = .code := by
    cases keyScan with
    | key => exact absurd rfl noKey
    | _ => rfl
  obtain ⟨closed, subset⟩ := spared
  rw [KeyScan.cursor_afterChar] at closed subset
  constructor
  · have stays : Cursor.code.advance ['"'] char = .code := by
      simp [Cursor.advance, noQuote]
    rw [standing, Cursor.after, List.foldl_cons, stays]
    exact closed
  · rw [standing]
    exact strictIntegers_cons_subset noQuote subset

end KeyScan.Spared

/-- Quoting bare keys closes every key and makes no integers. -/
theorem spared_quoteSlotKeysFrom {code : List Char} (noQuote : '"' ∉ code)
    (keyScan : KeyScan) (scan : NumberScan) (fits : keyScan.Fits scan code) :
    keyScan.Spared scan (quoteSlotKeysFrom keyScan code) code := by
  fun_induction quoteSlotKeysFrom keyScan code generalizing scan with
  | case1 keyScan =>
      cases keyScan with
      | key => cases fits
      | _ => exact ⟨rfl, List.Subset.refl _⟩
  | case2 char rest key ih =>
      rw [List.mem_cons, not_or] at noQuote
      exact .inside key (ih noQuote.2 (scan.advance char) (fits.goOn key))
  | case3 char rest ends ih =>
      rw [List.mem_cons, not_or] at noQuote
      have other := isNumberChar_of_precedesValue (fits.precedes (by simpa using ends))
      exact .closing (Ne.symm noQuote.1) other
        (ih noQuote.2 (.afterOther char) (KeyScan.fits_afterChar _ fun _ => rfl))
  | case4 keyScan char rest noKey begins ih =>
      obtain ⟨rfl, beginsHere⟩ := begins
      rw [List.mem_cons, not_or] at noQuote
      obtain ⟨key, keyFits⟩ : isKeyChar char = true ∧
          KeyScan.key.Fits (scan.advance char) rest :=
        KeyScan.fits_of_beginsKey beginsHere
      exact .opening key fits (ih noQuote.2 _ keyFits)
  | case5 keyScan char rest noKey stays ih =>
      rw [List.mem_cons, not_or] at noQuote
      exact .outside noKey (Ne.symm noQuote.1) (ih noQuote.2 (scan.advance char)
        (KeyScan.fits_afterChar _ fun other => NumberScan.advance_of_other other scan))

/-- The regular pass over code makes no integers. -/
theorem spares_repairCode : Spares repairCode where
  empty := rfl
  closed noQuote :=
    (spared_quoteSlotKeysFrom (notMem_dropDanglingCommas noQuote) .elsewhere .word
      trivial).closed
  integers noQuote scan _ :=
    List.Subset.trans
      (spared_quoteSlotKeysFrom (notMem_dropDanglingCommas noQuote) .elsewhere scan
        trivial).integers
      (strictIntegers_dropDanglingCommas noQuote scan)

/-- The regular pass makes no integers. -/
theorem strictIntegers_normalize (text : List Char) :
    strictIntegers .code .apart (normalize text) ⊆
      integersFrom documentQuotes .code .apart text := by
  rw [normalize, ← strictIntegers_convertSingleQuotes]
  exact spares_repairCode.mapCode _

end TwinSchema.Relaxed
