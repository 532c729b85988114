import Mathlib.Data.List.TakeWhile
import TwinSchema.Proofs.Relaxed.Mending
import TwinSchema.Proofs.Relaxed.Refusal

/-!
# Literals of a repaired document

Where all the literals of a document are closed, so are those of every repaired
one. The repairs leave each literal as it stands, and every literal that they add
is a bare key in quotes.
-/

namespace TwinSchema.Relaxed

open Text

def literals (text : List Char) : List (List Char) :=
  ((splitChunks text).filter Chunk.isLiteral).map Chunk.text

/-- A text whose literals are all closed, together with them. -/
inductive Holding : List Char → List (List Char) → Prop where
  | code {code : List Char} (noQuote : '"' ∉ code) : Holding code []
  | literal {code body rest : List Char} {others : List (List Char)}
      (noQuote : '"' ∉ code) (inside : LiteralBody '"' body) (later : Holding rest others) :
      Holding (code ++ ('"' :: body ++ '"' :: rest)) (('"' :: body ++ ['"']) :: others)

namespace Holding

variable {text other : List Char} {found more : List (List Char)}

theorem prepend {front : List Char} (noQuote : '"' ∉ front) (holding : Holding text found) :
    Holding (front ++ text) found := by
  cases holding with
  | code none => exact .code (by simp [noQuote, none])
  | literal none inside later =>
      rw [← List.append_assoc]
      exact .literal (by simp [noQuote, none]) inside later

theorem append (first : Holding text found) (second : Holding other more) :
    Holding (text ++ other) (found ++ more) := by
  induction first with
  | code noQuote => exact second.prepend noQuote
  | literal noQuote inside _ ih =>
      rw [List.append_assoc, List.append_assoc, List.cons_append]
      exact .literal noQuote inside ih

theorem literals_eq (holding : Holding text found) : literals text = found := by
  have behind (code : List Char) (chunks : List Chunk) :
      (Chunk.consCode code chunks).filter Chunk.isLiteral = chunks.filter Chunk.isLiteral := by
    cases code <;> rfl
  induction holding with
  | code noQuote =>
      rw [literals, splitChunks, splitFrom_code noQuote, behind]
      rfl
  | @literal code body rest others noQuote inside _ ih =>
      have split : splitFrom .code ('"' :: body ++ '"' :: rest) =
          ([], .literal ('"' :: body ++ ['"']) ::
            Chunk.consCode (splitFrom .code rest).1 (splitFrom .code rest).2) := by
        rw [List.cons_append, splitFrom, if_pos rfl, splitFrom_body inside]
        rfl
      rw [literals, splitChunks, splitFrom_code_append noQuote, split, behind,
        List.filter_cons_of_pos rfl, List.map_cons, ← ih, literals, splitChunks]
      rfl

end Holding

/-- How a text goes on from where a scan for quotes stands: with a text whose
literals are closed, or with the rest of a literal in front of one. -/
inductive GoesOn : Quoting → List Char → Prop where
  | outside {text : List Char} {found : List (List Char)} (holding : Holding text found) :
      GoesOn .outside text
  | inside {quoting : Quoting} {body rest : List Char} {found : List (List Char)}
      (literal : quoting ≠ .outside) (within : LiteralBody '"' body)
      (holding : Holding rest found) : GoesOn quoting (body ++ '"' :: rest)

namespace GoesOn

variable {quoting : Quoting} {text : List Char} {char : Char}

theorem exists_holding (goesOn : GoesOn .outside text) : ∃ found, Holding text found := by
  cases goesOn with
  | outside holding => exact ⟨_, holding⟩
  | inside literal => exact absurd rfl literal

theorem code (goesOn : GoesOn .outside text) (noQuote : char ≠ '"') :
    GoesOn .outside (char :: text) := by
  obtain ⟨found, holding⟩ := goesOn.exists_holding
  have alone : '"' ∉ [char] := by simpa using noQuote.symm
  exact .outside (holding.prepend alone)

/-- A character that neither escapes nor ends a literal. -/
theorem plain (literal : quoting ≠ .outside) (goesOn : GoesOn quoting text)
    (notEscape : char ≠ '\\') (notQuote : char ≠ '"') : GoesOn quoting (char :: text) := by
  cases goesOn with
  | outside => exact absurd rfl literal
  | inside _ within holding =>
      exact .inside literal (.plain notEscape notQuote within) holding

theorem escaped (literal : quoting ≠ .outside) (goesOn : GoesOn quoting text) :
    GoesOn quoting ('\\' :: char :: text) := by
  cases goesOn with
  | outside => exact absurd rfl literal
  | inside _ within holding => exact .inside literal (.escaped within) holding

theorem closed (literal : quoting ≠ .outside) (goesOn : GoesOn .outside text) :
    GoesOn quoting ('"' :: text) := by
  obtain ⟨found, holding⟩ := goesOn.exists_holding
  exact .inside literal .nil holding

theorem opened (goesOn : GoesOn quoting text) (literal : quoting ≠ .outside) :
    GoesOn .outside ('"' :: text) := by
  cases goesOn with
  | outside => exact absurd rfl literal
  | inside _ within holding =>
      have none : '"' ∉ ([] : List Char) := List.not_mem_nil
      exact .outside (.literal none within holding)

end GoesOn

theorem goesOn_requote (quoting : Quoting) (text : List Char)
    (closed : quoting.cursor.after documentQuotes text = .code) :
    GoesOn quoting (requote quoting text) := by
  have double : Quoting.double ≠ .outside := by decide
  have single : Quoting.single ≠ .outside := by decide
  fun_induction requote quoting text with
  | case1 quoting =>
      cases quoting with
      | outside => exact .outside (.code List.not_mem_nil)
      | double | single => cases closed
  | case2 rest ih => exact (ih closed).opened double
  | case3 rest _ ih => exact (ih closed).opened single
  | case4 char rest noDouble noSingle ih =>
      refine (ih ?_).code noDouble
      have code : char ∉ documentQuotes := by simp [documentQuotes, noDouble, noSingle]
      simpa [Quoting.cursor, Cursor.after, Cursor.advance, code] using closed
  | case5 => cases closed
  | case6 escaped rest ih => exact (ih closed).escaped double
  | case7 rest _ ih => exact (ih closed).closed double
  | case8 char rest notEscape notQuote ih =>
      refine (ih ?_).plain double notEscape notQuote
      simpa [Quoting.cursor, Cursor.after, Cursor.advance, notEscape, notQuote] using closed
  | case9 => cases closed
  | case10 rest ih => exact (ih closed).plain single (by decide) (by decide)
  | case11 escaped rest _ ih => exact (ih closed).escaped single
  | case12 rest _ ih => exact (ih closed).closed single
  | case13 rest _ _ ih => exact (ih closed).escaped single
  | case14 char rest notEscape notSingle notDouble ih =>
      refine (ih ?_).plain single notEscape notDouble
      simpa [Quoting.cursor, Cursor.after, Cursor.advance, notEscape, notSingle] using closed

/-- A bare key in quotes. -/
def IsQuotedKey (literal : List Char) : Prop :=
  ∃ name : List Char, name ≠ [] ∧ (∀ char ∈ name, isNamePart char = true) ∧
    literal = '"' :: name ++ ['"']

/-- Literals among which quoted keys are put. -/
inductive WithKeys : List (List Char) → List (List Char) → Prop where
  | nil : WithKeys [] []
  | kept {literal : List Char} {first second : List (List Char)}
      (rest : WithKeys first second) : WithKeys (literal :: first) (literal :: second)
  | key {literal : List Char} {first second : List (List Char)}
      (quoted : IsQuotedKey literal) (rest : WithKeys first second) :
      WithKeys first (literal :: second)

namespace WithKeys

variable {first second third : List (List Char)}

theorem trans (one : WithKeys first second) (other : WithKeys second third) :
    WithKeys first third := by
  induction other generalizing first with
  | nil => exact one
  | kept _ ih =>
      cases one with
      | kept rest => exact .kept (ih rest)
      | key quoted rest => exact .key quoted (ih rest)
  | key quoted _ ih => exact .key quoted (ih one)

theorem prepend {keys : List (List Char)} (quoted : ∀ key ∈ keys, IsQuotedKey key)
    (rest : WithKeys first second) : WithKeys first (keys ++ second) := by
  induction keys with
  | nil => exact rest
  | cons key keys ih =>
      obtain ⟨here, others⟩ := List.forall_mem_cons.mp quoted
      exact .key here (ih others)

end WithKeys

/-- A text of which all literals are quoted keys. -/
def HoldsKeys (text : List Char) : Prop :=
  ∃ keys, Holding text keys ∧ ∀ key ∈ keys, IsQuotedKey key

namespace HoldsKeys

variable {text other : List Char}

theorem code (noQuote : '"' ∉ text) : HoldsKeys text := ⟨[], .code noQuote, by simp⟩

theorem append (first : HoldsKeys text) (second : HoldsKeys other) :
    HoldsKeys (text ++ other) := by
  obtain ⟨keys, holding, quoted⟩ := first
  obtain ⟨more, later, others⟩ := second
  refine ⟨keys ++ more, holding.append later, ?_⟩
  rw [List.forall_mem_append]
  exact ⟨quoted, others⟩

theorem cons {char : Char} (noQuote : char ≠ '"') (rest : HoldsKeys text) :
    HoldsKeys (char :: text) := by
  have alone : '"' ∉ [char] := by simpa using noQuote.symm
  exact (code alone).append rest

theorem key {name : List Char} (nonempty : name ≠ [])
    (parts : ∀ char ∈ name, isNamePart char = true) (rest : HoldsKeys text) :
    HoldsKeys ('"' :: name ++ '"' :: text) := by
  have inside : LiteralBody '"' name := .of_plain fun char member =>
    have plain := plain_of_isNamePart (parts char member)
    ⟨plain.2.1, plain.1⟩
  obtain ⟨keys, holding, quoted⟩ := rest
  have none : '"' ∉ ([] : List Char) := List.not_mem_nil
  refine ⟨_, .literal none inside holding, ?_⟩
  rw [List.forall_mem_cons]
  exact ⟨⟨name, nonempty, parts, rfl⟩, quoted⟩

end HoldsKeys

/-- A change of code that makes no literals but quoted keys keeps the literals of a
text. -/
theorem withKeys_mapCode {change : List Char → List Char} (empty : change [] = [])
    (adds : ∀ code, '"' ∉ code → HoldsKeys (change code)) {text : List Char}
    {found : List (List Char)} (holding : Holding text found) :
    ∃ more, Holding (mapCode change text) more ∧ WithKeys found more := by
  induction holding with
  | @code code noQuote =>
      obtain ⟨keys, holding, quoted⟩ := adds code noQuote
      rw [mapCode_code empty noQuote]
      refine ⟨keys, holding, ?_⟩
      have alone := WithKeys.prepend quoted .nil
      rwa [List.append_nil] at alone
  | @literal code body rest others noQuote inside _ ih =>
      obtain ⟨keys, front, quoted⟩ := adds code noQuote
      obtain ⟨more, later, kept⟩ := ih
      rw [mapCode_literal change empty noQuote inside]
      have none : '"' ∉ ([] : List Char) := List.not_mem_nil
      exact ⟨_, front.append (.literal none inside later), .prepend quoted (.kept kept)⟩

theorem holdsKeys_dropDanglingCommas {code : List Char} (noQuote : '"' ∉ code) :
    HoldsKeys (dropDanglingCommas code) :=
  .code (notMem_dropDanglingCommas noQuote)

/-- What a scan for bare keys makes of code, or of the rest of a key and the code
behind it. -/
theorem holdsKeys_quoteSlotKeysFrom (scan : KeyScan) {code : List Char}
    (noQuote : '"' ∉ code) :
    (scan ≠ .key → HoldsKeys (quoteSlotKeysFrom scan code)) ∧
      (scan = .key → colonFollows (code.dropWhile isKeyChar) = true →
        ∃ rest, quoteSlotKeysFrom .key code = code.takeWhile isKeyChar ++ '"' :: rest ∧
          HoldsKeys rest) := by
  have noKey (scan : KeyScan) (char : Char) : scan.afterChar char ≠ .key := by
    rw [KeyScan.afterChar]
    split
    next => simp
    next => split <;> simp
  fun_induction quoteSlotKeysFrom scan code with
  | case1 => exact ⟨fun _ => .code noQuote, fun _ colon => by cases colon⟩
  | case2 char rest key ih =>
      rw [List.mem_cons, not_or] at noQuote
      refine ⟨fun other => absurd rfl other, fun _ colon => ?_⟩
      rw [List.dropWhile_cons_of_pos key] at colon
      obtain ⟨behind, same, keys⟩ := (ih noQuote.2).2 rfl colon
      refine ⟨behind, ?_, keys⟩
      rw [quoteSlotKeysFrom, if_pos key, same, List.takeWhile_cons_of_pos key]
      rfl
  | case3 char rest ends ih =>
      rw [List.mem_cons, not_or] at noQuote
      refine ⟨fun other => absurd rfl other, fun _ _ => ?_⟩
      refine ⟨_, ?_, ((ih noQuote.2).1 (noKey .key char)).cons (Ne.symm noQuote.1)⟩
      rw [quoteSlotKeysFrom, if_neg ends, List.takeWhile_cons_of_neg ends]
      rfl
  | case4 scan char rest other begins ih =>
      rw [List.mem_cons, not_or] at noQuote
      refine ⟨fun _ => ?_, fun same => absurd same other⟩
      obtain ⟨-, begins⟩ := begins
      rw [beginsKey, List.head?_cons, Option.any_some, Bool.and_eq_true] at begins
      obtain ⟨key, colon⟩ := begins
      rw [List.dropWhile_cons_of_pos key] at colon
      obtain ⟨behind, same, keys⟩ := (ih noQuote.2).2 rfl colon
      have parts : ∀ next ∈ char :: rest.takeWhile isKeyChar, isNamePart next = true :=
        List.forall_mem_cons.mpr ⟨isNamePart_of_isKeyChar key,
          fun _ member => isNamePart_of_isKeyChar (List.mem_takeWhile_imp member)⟩
      rw [same]
      exact .key (List.cons_ne_nil _ _) parts keys
  | case5 scan char rest other _ ih =>
      rw [List.mem_cons, not_or] at noQuote
      refine ⟨fun _ => ?_, fun same => absurd same other⟩
      exact ((ih noQuote.2).1 (noKey scan char)).cons (Ne.symm noQuote.1)

theorem holdsKeys_repairCode {code : List Char} (noQuote : '"' ∉ code) :
    HoldsKeys (repairCode code) :=
  (holdsKeys_quoteSlotKeysFrom .elsewhere (notMem_dropDanglingCommas noQuote)).1 nofun

theorem holdsKeys_quoteWords {code : List Char} (noQuote : '"' ∉ code) :
    HoldsKeys (mapWords quoteWord code) := by
  fun_induction mapWords quoteWord code with
  | case1 => exact .code noQuote
  | case2 char rest part ih =>
      have later := ih (notMem_dropWhile noQuote)
      have parts := parts_takeWhile part rest
      rw [quoteWord]
      split
      next =>
        rw [List.append_assoc]
        exact .key (List.cons_ne_nil _ _) parts later
      next => exact (HoldsKeys.code (notMem_of_forall parts rfl)).append later
  | case3 char rest _ ih =>
      rw [List.mem_cons, not_or] at noQuote
      exact (ih noQuote.2).cons (Ne.symm noQuote.1)

theorem holdsKeys_repairWords {code : List Char} (noQuote : '"' ∉ code) :
    HoldsKeys (repairWords code) :=
  holdsKeys_quoteWords (notMem_mapWords_respellWord noQuote)

theorem notMem_separatedGap (previous : Option Char) {pending : List Char}
    (blank : ∀ char ∈ pending, isBlank char = true) (next : Option Cell) :
    '"' ∉ separatedGap previous pending.reverse next := by
  intro member
  have blankGap : ∀ char ∈ pending.reverse, isBlank char = true :=
    fun char member => blank char (List.mem_reverse.mp member)
  rcases separatedGap_cases previous blankGap next with same | ⟨-, -, signs⟩
  · rw [same] at member
    cases blankGap _ member
  · cases signs _ member

/-- Code in which commas are inserted up to its last blanks, which are left
pending. -/
theorem layFrom_code {code : List Char} (noQuote : '"' ∉ code) (rest : List Char)
    (previous : Option Char) {pending : List Char}
    (blank : ∀ char ∈ pending, isBlank char = true) :
    ∃ front next later, '"' ∉ front ∧ (∀ char ∈ later, isBlank char = true) ∧
      missingCommas.layFrom previous pending (cells ['"'] .code (code ++ rest)) =
        front ++ missingCommas.layFrom next later (cells ['"'] .code rest) := by
  induction code generalizing previous pending with
  | nil => exact ⟨[], previous, pending, List.not_mem_nil, blank, rfl⟩
  | cons char code ih =>
      rw [List.mem_cons, not_or] at noQuote
      cases gap : isBlank char with
      | true =>
          obtain ⟨front, next, later, none, blanks, laid⟩ :=
            ih noQuote.2 previous (List.forall_mem_cons.mpr ⟨gap, blank⟩)
          exact ⟨front, next, later, none, blanks,
            (layFrom_blank gap previous pending (code ++ rest)).trans laid⟩
      | false =>
          have noGap : ∀ other ∈ ([] : List Char), isBlank other = true := by simp
          obtain ⟨front, next, later, none, blanks, laid⟩ := ih noQuote.2 (some char) noGap
          have solid : Solid [char] (codeCells [char]) :=
            solid_code (List.forall_mem_singleton.mpr ⟨gap, Ne.symm noQuote.1⟩)
          obtain ⟨cell, -, whole⟩ := layFrom_text solid
          refine ⟨separatedGap previous pending.reverse (some cell) ++ char :: front,
            next, later, ?_, blanks, ?_⟩
          · rw [List.mem_append, List.mem_cons, not_or, not_or]
            exact ⟨notMem_separatedGap previous blank _, noQuote.1, none⟩
          · have first := whole previous pending (code ++ rest)
            rw [List.nil_append, List.nil_append] at first
            rw [List.cons_append, first, List.append_assoc, List.cons_append]
            exact congrArg (fun tail => _ ++ char :: tail) laid

theorem Holding.layFrom {text : List Char} {found : List (List Char)}
    (holding : Holding text found) (previous : Option Char) {pending : List Char}
    (blank : ∀ char ∈ pending, isBlank char = true) :
    Holding (missingCommas.layFrom previous pending (cells ['"'] .code text)) found := by
  induction holding generalizing previous pending with
  | @code code noQuote =>
      obtain ⟨front, next, later, none, blanks, laid⟩ :=
        layFrom_code noQuote [] previous blank
      rw [List.append_nil] at laid
      rw [laid]
      refine .code ?_
      rw [List.mem_append, not_or]
      exact ⟨none, notMem_separatedGap next blanks Option.none⟩
  | @literal code body rest others noQuote inside _ ih =>
      obtain ⟨front, next, later, none, blanks, laid⟩ :=
        layFrom_code noQuote ('"' :: body ++ '"' :: rest) previous blank
      obtain ⟨cell, -, whole⟩ := layFrom_text (solid_quoted inside)
      have last : ∃ final, missingCommas.layFrom next later
          (cells ['"'] .code ('"' :: body ++ '"' :: rest)) =
            separatedGap next later.reverse (some cell) ++ ('"' :: body ++
              '"' :: missingCommas.layFrom final [] (cells ['"'] .code rest)) :=
        ⟨_, by simpa using whole next later rest⟩
      obtain ⟨final, last⟩ := last
      have front : '"' ∉ front ++ separatedGap next later.reverse (some cell) := by
        rw [List.mem_append, not_or]
        exact ⟨none, notMem_separatedGap next blanks _⟩
      have noGap : ∀ other ∈ ([] : List Char), isBlank other = true := by simp
      rw [laid, last, ← List.append_assoc]
      exact .literal front inside (ih final noGap)

theorem Holding.wrapBareBody {text : List Char} {found : List (List Char)}
    (holding : Holding text found) : Holding (wrapBareBody text) found := by
  rw [Relaxed.wrapBareBody]
  split
  next =>
    have opening : '"' ∉ ['\x7b'] := by decide
    have closing : '"' ∉ ['\x7d'] := by decide
    have wrapped := (holding.prepend opening).append (.code closing)
    rwa [List.append_nil] at wrapped
  next => exact holding

/-- Where every literal of a document is closed, both passes keep its literals as
they are in double quotes, in order, and put nothing but quoted keys among
them. -/
theorem withKeys_normalize {text : List Char}
    (closed : Cursor.code.after documentQuotes text = .code) :
    WithKeys (literals (convertSingleQuotes text)) (literals (normalize text)) ∧
      WithKeys (literals (convertSingleQuotes text)) (literals (normalizeBoldly text)) := by
  obtain ⟨found, holding⟩ := (goesOn_requote .outside text closed).exists_holding
  obtain ⟨regular, repaired, first⟩ :=
    withKeys_mapCode rfl (fun _ => holdsKeys_repairCode) holding
  obtain ⟨worded, spelled, second⟩ :=
    withKeys_mapCode (by simp [repairWords, mapWords]) (fun _ => holdsKeys_repairWords) repaired
  have noGap : ∀ other ∈ ([] : List Char), isBlank other = true := by simp
  have wrapped := (spelled.layFrom Option.none noGap).wrapBareBody
  obtain ⟨bold, last, third⟩ :=
    withKeys_mapCode rfl (fun _ => holdsKeys_dropDanglingCommas) wrapped
  have asked : literals (convertSingleQuotes text) = found := holding.literals_eq
  have normal : literals (normalize text) = regular := repaired.literals_eq
  have boldly : literals (normalizeBoldly text) = bold := last.literals_eq
  rw [asked, normal, boldly]
  exact ⟨first, first.trans (second.trans third)⟩

/-- Apostrophes with quotes in them, bare keys, a foreign literal and lost commas
around literals. -/
theorem withKeys_normalize_mixed :
    let text := "a: 'x\"y, z: 1', \x7b b : \"k: \\\"\"\n'', d$: True ,] e : 2".toList
    Cursor.code.after documentQuotes text = .code ∧
      WithKeys (literals (convertSingleQuotes text)) (literals (normalize text)) ∧
      WithKeys (literals (convertSingleQuotes text)) (literals (normalizeBoldly text)) ∧
      (literals (convertSingleQuotes text)).length = 3 ∧
      (literals (normalizeBoldly text)).length = 7 := by
  intro text
  have closed : Cursor.code.after documentQuotes text = .code := by decide +kernel
  obtain ⟨regular, bold⟩ := withKeys_normalize closed
  exact ⟨closed, regular, bold, by decide +kernel, by decide +kernel⟩

end TwinSchema.Relaxed
