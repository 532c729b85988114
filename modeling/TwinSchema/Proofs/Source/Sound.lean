import TwinSchema.Proofs.Source.Balanced
import TwinSchema.Proofs.Source.Fragment
import TwinSchema.Proofs.Source.Tame

/-!
# Sound fragments

A fragment is sound when its code neither separates nor ends anything, its
quoted texts hold no assignments, and its entries begin visibly and like no
statement. The text of a sound fragment is balanced and tame in every style.
-/

namespace TwinSchema.Source

open Text

/-- The characters of code outside of brackets and texts. -/
def isCode (char : Char) : Bool :=
  !isBlank char && !isOpener char && !isCloser char &&
    decide (char ∉ sourceQuotes) && decide (char ∉ ['/', '=', ',', ';'])

theorem isCode_iff {char : Char} : isCode char = true ↔
    isBlank char = false ∧ isOpener char = false ∧ isCloser char = false ∧
      char ∉ sourceQuotes ∧ char ∉ ['/', '=', ',', ';'] := by
  simp only [isCode, Bool.and_eq_true, decide_eq_true_eq, Bool.not_eq_true',
    and_assoc]

/-- A fragment that begins with a visible character which closes nothing, and
like no statement, whatever follows it. -/
def Fragment.Leads (fragment : Fragment) : Prop :=
  ∀ style level, ∃ char others, fragment.text style level = char :: others ∧
    isBlank char = false ∧ isCloser char = false ∧
      ∀ rest, Calm (char :: (others ++ rest))

/-- A fragment whose text can be taken apart again. -/
inductive Fragment.Sound : Fragment → Prop where
  | plain {code : List Char} (isCode : ∀ char ∈ code, isCode char = true) :
      Sound (.plain code)
  | quoted {text : String} (free : holdsAssignment text.toList = false) :
      Sound (.quoted text)
  | join {first second : Fragment} (left : Sound first) (right : Sound second) :
      Sound (.join first second)
  | labelled {label content : Fragment} (left : Sound label)
      (right : Sound content) (leads : content.Leads) :
      Sound (.labelled label content)
  | called {arguments : Fragment} (within : Sound arguments) :
      Sound (.called arguments)
  | bracketed {pair : Pair} {entries : List Fragment}
      (leads : ∀ entry ∈ entries, entry.Leads)
      (within : ∀ entry ∈ entries, Sound entry) :
      Sound (.bracketed pair entries)

theorem Pair.isOpener_opening (pair : Pair) : isOpener pair.opening = true := by
  cases pair <;> rfl

theorem Pair.isCloser_closing (pair : Pair) : isCloser pair.closing = true := by
  cases pair <;> rfl

/-- The characters that neither end a statement nor separate pieces. -/
def keepsOn (char : Char) : Bool := keepsStatement char && keepsPiece char

theorem keepsOn_of_isCode {char : Char} (code : isCode char = true) :
    keepsOn char = true := by
  obtain ⟨visible, -, -, -, noSign⟩ := isCode_iff.mp code
  simp only [List.mem_cons, List.not_mem_nil, or_false, not_or] at noSign
  have noBreak : char ≠ '\n' := by
    rintro rfl
    revert visible
    decide
  simp [keepsOn, keepsStatement, keepsPiece, noSign, noBreak]

/-- The characters between entries are neither commas nor brackets. -/
theorem balanced_gap {gap : List Char}
    (spaces : ∀ char ∈ gap, isGapChar char = true) : Balanced keepsPiece gap := by
  apply Balanced.of_plain
  intro char member
  have space := spaces char member
  rcases isGapChar_iff.mp space with rfl | rfl <;> decide

/-- Balanced entries stand balanced between brackets. -/
theorem balanced_inside (style : Style) (level : Nat) {texts : List (List Char)}
    (balanced : ∀ text ∈ texts, Balanced (fun _ => true) text) :
    Balanced (fun _ => true) (style.inside level texts) := by
  cases texts with
  | nil => exact .nil
  | cons text texts =>
      obtain ⟨first, others⟩ := List.forall_mem_cons.mp balanced
      have gap : ∀ {gap : List Char}, (∀ char ∈ gap, isGapChar char = true) →
          Balanced (fun _ => true) gap := fun spaces =>
        (balanced_gap spaces).mono fun _ _ => rfl
      have later : Balanced (fun _ => true)
          (texts.flatMap fun other => ',' :: style.next level ++ other) := by
        clear balanced
        induction texts with
        | nil => exact .nil
        | cons next texts ih =>
            obtain ⟨here, rest⟩ := List.forall_mem_cons.mp others
            rw [List.flatMap_cons]
            refine .append (.append ?_ here) (ih rest)
            exact .cons rfl rfl (by decide) rfl (gap (style.gapNext level))
      exact .append (.append (.append (gap (style.gapFirst level)) first) later)
        (gap (style.gapLast level))

theorem Fragment.Sound.balanced {fragment : Fragment} (sound : fragment.Sound)
    (style : Style) (level : Nat) :
    Balanced keepsOn (fragment.text style level) := by
  induction sound generalizing level with
  | @plain code isCode =>
      apply Balanced.of_plain
      intro char member
      have code := isCode char member
      obtain ⟨-, noOpener, noCloser, noQuote, -⟩ := isCode_iff.mp code
      exact ⟨noOpener, noCloser, noQuote, keepsOn_of_isCode code⟩
  | @quoted text free =>
      exact .literal (by decide) (Relaxed.literalBody_escaped text)
  | join _ _ left right => exact .append (left level) (right level)
  | labelled _ _ _ left right =>
      refine .append (left level) ?_
      exact .cons rfl rfl (by decide) rfl
        (.cons rfl rfl (by decide) rfl (right level))
  | called _ within =>
      exact .enclosed rfl rfl ((within level).mono fun _ _ => rfl)
  | @bracketed pair entries leads _ within =>
      refine .enclosed pair.isOpener_opening pair.isCloser_closing ?_
      apply balanced_inside style level
      intro text member
      rw [entryTexts_eq_map] at member
      obtain ⟨entry, inside, rfl⟩ := List.mem_map.mp member
      exact (within entry inside (level + 1)).mono fun _ _ => rfl

/-- No statement begins with another letter than its words do. -/
theorem calm_of_head {char : Char} {rest : List Char}
    (visible : isInlineBlank char = false)
    (different : char ∉ ['i', 'c', 'l', 'v']) : Calm (char :: rest) := by
  intro word member after dropped
  rw [List.dropWhile_cons_of_neg (by simp [visible])] at dropped
  simp only [List.mem_cons, List.not_mem_nil, or_false, not_or] at different
  simp only [leadingWords, List.mem_cons, List.not_mem_nil, or_false] at member
  rcases member with rfl | rfl | rfl | rfl <;>
    simp [dropWord?, different] at dropped

theorem calm_gap {gap text : List Char}
    (spaces : ∀ char ∈ gap, isGapChar char = true) (calm : Calm text) :
    Calm (gap ++ text) := by
  induction gap with
  | nil => exact calm
  | cons char gap ih =>
      obtain ⟨first, others⟩ := List.forall_mem_cons.mp spaces
      rcases isGapChar_iff.mp first with rfl | rfl
      · exact ih others
      · exact calm_of_head (by decide) (by decide)

/-- A word without a sign is dropped from a text inside what stands before that
sign. -/
theorem dropWord?_before {sign : Char} {word : List Char} (noSign : sign ∉ word)
    {label rest after : List Char}
    (dropped : dropWord? word (label ++ sign :: rest) = some after) :
    ∃ left, label = word ++ left ∧ after = left ++ sign :: rest := by
  rcases List.append_eq_append_iff.mp (dropWord?_eq_some dropped) with
    ⟨between, rfl, same⟩ | ⟨left, rfl, rfl⟩
  · cases between with
    | nil => exact ⟨[], by simp, same.symm⟩
    | cons char between =>
        rw [List.cons_append, List.cons.injEq] at same
        rw [same.1] at noSign
        simp at noSign
  · exact ⟨left, rfl, rfl⟩

/-- A label of visible characters begins no statement. -/
theorem calm_label {label : List Char}
    (visible : ∀ char ∈ label, isBlank char = false) (rest : List Char) :
    Calm (label ++ ':' :: rest) := by
  have stays : (label ++ ':' :: rest).dropWhile isInlineBlank =
      label ++ ':' :: rest := by
    apply dropWhile_of_stops
    intro char member
    cases label with
    | nil =>
        simp only [List.nil_append, List.head?_cons, Option.mem_some_iff] at member
        rw [← member]
        rfl
    | cons first label =>
        simp only [List.cons_append, List.head?_cons, Option.mem_some_iff]
          at member
        have visible := visible first List.mem_cons_self
        rw [member] at visible
        simp only [isInlineBlank, Bool.or_eq_false_iff, beq_eq_false_iff_ne]
        constructor <;> rintro rfl <;> revert visible <;> decide
  intro word member after dropped
  rw [stays] at dropped
  have noColon : ':' ∉ word.toList := by
    clear dropped
    revert word
    decide
  obtain ⟨left, rfl, rfl⟩ := dropWord?_before noColon dropped
  cases left with
  | nil => rfl
  | cons char left =>
      have inside := visible char (by simp)
      simp [blanks?, inside]

theorem calm_closing {closing : Char} (closes : isCloser closing = true)
    (rest : List Char) : Calm (closing :: rest) := by
  simp only [isCloser, Bool.or_eq_true, beq_iff_eq] at closes
  rcases closes with (rfl | rfl) | rfl <;>
    exact calm_of_head (by decide) (by decide)

section Carries

variable {property : List Char → Prop} (carries : Carries property)

include carries

theorem Carries.gap {gap text : List Char}
    (spaces : ∀ char ∈ gap, isGapChar char = true) (calm : Calm text)
    (others : property text) : property (gap ++ text) := by
  induction gap with
  | nil => exact others
  | cons char gap ih =>
      obtain ⟨first, inside⟩ := List.forall_mem_cons.mp spaces
      rcases isGapChar_iff.mp first with rfl | rfl
      · exact carries.char (by decide) (by decide) (by decide) (by decide)
          (ih inside)
      · exact carries.lineBreak (calm_gap inside calm) (ih inside)

theorem Carries.bracket {char : Char} {rest : List Char}
    (bracket : isOpener char = true ∨ isCloser char = true)
    (others : property rest) : property (char :: rest) := by
  simp only [isOpener, isCloser, Bool.or_eq_true, beq_iff_eq] at bracket
  rcases bracket with ((rfl | rfl) | rfl) | ((rfl | rfl) | rfl) <;>
    exact carries.char (by decide) (by decide) (by decide) (by decide) others

/-- Entries that may be put in front may be so between brackets. -/
theorem Carries.inside (style : Style) (level : Nat) {texts : List (List Char)}
    (each : ∀ text ∈ texts, ∀ rest, property rest → property (text ++ rest))
    (calm : ∀ text ∈ texts, ∀ rest, Calm (text ++ rest))
    {closing : Char} (closes : isCloser closing = true) {rest : List Char}
    (others : property (closing :: rest)) :
    property (style.inside level texts ++ closing :: rest) := by
  cases texts with
  | nil => exact others
  | cons text texts =>
      obtain ⟨first, eachOther⟩ := List.forall_mem_cons.mp each
      obtain ⟨calmFirst, calmOthers⟩ := List.forall_mem_cons.mp calm
      have ending : property (style.last level ++ closing :: rest) :=
        carries.gap (style.gapLast level) (calm_closing closes rest) others
      have later : property ((texts.flatMap fun other =>
          ',' :: style.next level ++ other) ++
            (style.last level ++ closing :: rest)) := by
        clear each calm
        induction texts with
        | nil => exact ending
        | cons next texts ih =>
            obtain ⟨here, eachRest⟩ := List.forall_mem_cons.mp eachOther
            obtain ⟨calmNext, calmRest⟩ := List.forall_mem_cons.mp calmOthers
            have further := here _ (ih eachRest calmRest)
            simp only [List.flatMap_cons, List.cons_append, List.append_assoc]
            exact carries.char (by decide) (by decide) (by decide) (by decide)
              (carries.gap (style.gapNext level) (calmNext _) further)
      have whole := carries.gap (style.gapFirst level) (calmFirst _)
        (first _ later)
      simpa [Style.inside, Relaxed.spaced] using whole

theorem Carries.fragment {fragment : Fragment} (sound : fragment.Sound)
    (style : Style) (level : Nat) {rest : List Char} (others : property rest) :
    property (fragment.text style level ++ rest) := by
  induction sound generalizing level rest with
  | @plain code isCode =>
      rw [Fragment.text]
      induction code with
      | nil => exact others
      | cons char code ih =>
          obtain ⟨first, inside⟩ := List.forall_mem_cons.mp isCode
          have keeps := keepsOn_of_isCode first
          obtain ⟨-, -, -, noQuote, noSign⟩ := isCode_iff.mp first
          simp only [List.mem_cons, List.not_mem_nil, or_false, not_or] at noSign
          have noBreak : char ≠ '\n' := by
            rintro rfl
            cases keeps
          exact carries.char noQuote noSign.1 noSign.2.1 noBreak (ih inside)
  | quoted free => exact carries.writeText free others
  | join _ _ left right =>
      rw [Fragment.text, List.append_assoc]
      exact left level (right level others)
  | labelled _ _ _ left right =>
      rw [Fragment.text, List.append_assoc]
      refine left level ?_
      exact carries.char (by decide) (by decide) (by decide) (by decide)
        (carries.char (by decide) (by decide) (by decide) (by decide)
          (right level others))
  | called _ within =>
      rw [Fragment.text, List.append_assoc]
      exact carries.bracket (.inl rfl)
        (within level (carries.bracket (.inr rfl) others))
  | @bracketed pair entries leads _ within =>
      have opens := pair.isOpener_opening
      have closes := pair.isCloser_closing
      rw [Fragment.text, List.append_assoc, entryTexts_eq_map]
      refine carries.bracket (.inl opens) ?_
      refine carries.inside style level ?_ ?_ closes
        (carries.bracket (.inr closes) others)
      · rintro text member rest others
        obtain ⟨entry, inside, rfl⟩ := List.mem_map.mp member
        exact within entry inside (level + 1) others
      · rintro text member rest
        obtain ⟨entry, inside, rfl⟩ := List.mem_map.mp member
        obtain ⟨char, others, same, -, -, calm⟩ :=
          leads entry inside style (level + 1)
        rw [same]
        exact calm rest

end Carries

theorem Fragment.Sound.tame {fragment : Fragment} (sound : fragment.Sound)
    (style : Style) (level : Nat) : Tame (fragment.text style level) := by
  have tame := carries_tame.fragment sound style level .nil
  rwa [List.append_nil] at tame

end TwinSchema.Source
