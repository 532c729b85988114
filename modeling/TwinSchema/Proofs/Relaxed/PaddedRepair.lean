import TwinSchema.Proofs.Relaxed.Padded
import TwinSchema.Proofs.Relaxed.Unquoted

/-!
# Repairing padded documents

Each repair of the code between literals makes of a padded document the padded
repaired document. A repair looks ahead for the next visible character only, and
that one padding never changes.
-/

namespace TwinSchema.Relaxed

open Json Text

variable {change : List Char → List Char} {loose : Bool} {char : Char}
variable {body rest tight padded : List Char}

theorem leadingCode_cons (noQuote : char ≠ '"') (rest : List Char) :
    leadingCode (char :: rest) = char :: leadingCode rest := by
  simp [leadingCode, noQuote]

theorem behindCode_cons (noQuote : char ≠ '"') (rest : List Char) :
    behindCode (char :: rest) = behindCode rest := by
  simp [behindCode, noQuote]

theorem firstVisible_leadingCode {sign : Char} (noQuote : sign ≠ '"')
    (text : List Char) :
    firstVisible (leadingCode text) = some sign ↔ firstVisible text = some sign := by
  induction text with
  | nil => rfl
  | cons char rest ih =>
      by_cases quote : char = '"'
      · rw [quote]
        simp [leadingCode, firstVisible, isBlank, Ne.symm noQuote]
      · rw [leadingCode_cons quote]
        cases blank : isBlank char with
        | true => simpa [firstVisible, blank] using ih
        | false => simp [firstVisible, blank]

theorem colonFollows_leadingCode (text : List Char) :
    colonFollows (leadingCode text) = colonFollows text := by
  rw [Bool.eq_iff_iff, colonFollows, colonFollows, beq_iff_eq, beq_iff_eq,
    firstVisible_leadingCode (by decide)]

/-- A pass that keeps the blanks and the closing signs that it comes to changes nothing in
what stands in front of a closing sign. -/
theorem beforeClosing_of_keeps {pass : List Char → List Char} (empty : pass [] = [])
    (blanks : ∀ char rest, isBlank char = true → pass (char :: rest) = char :: pass rest)
    (signs : ∀ char rest, closesGap char = true →
      ∃ others, pass (char :: rest) = char :: others)
    {text : List Char} (closing : beforeClosing text = true) :
    beforeClosing (pass text) = true := by
  induction text with
  | nil =>
      rw [empty]
      rfl
  | cons char rest ih =>
      cases blank : isBlank char with
      | true =>
          rw [beforeClosing_blank blank] at closing
          rw [blanks char rest blank, beforeClosing_blank blank, ih closing]
      | false =>
          rw [beforeClosing_visible blank] at closing
          obtain ⟨others, same⟩ := signs char rest closing
          rw [same, beforeClosing_visible blank, closing]

/-- A comma is dropped where a closing sign follows, and everything else stays. -/
theorem mapCode_dropDanglingCommas_cons (noQuote : char ≠ '"') (rest : List Char) :
    mapCode dropDanglingCommas (char :: rest) =
      if char = ',' ∧ (firstVisible rest = some '}' ∨ firstVisible rest = some ']') then
        mapCode dropDanglingCommas rest
      else char :: mapCode dropDanglingCommas rest := by
  have brace : firstVisible (leadingCode rest) = some '}' ↔
      firstVisible rest = some '}' := firstVisible_leadingCode (by decide) rest
  have bracket : firstVisible (leadingCode rest) = some ']' ↔
      firstVisible rest = some ']' := firstVisible_leadingCode (by decide) rest
  rw [mapCode_eq rfl (char :: rest), mapCode_eq rfl rest, leadingCode_cons noQuote,
    behindCode_cons noQuote, dropDanglingCommas]
  simp only [brace, bracket]
  split <;> rfl

theorem beforeClosing_dropDanglingCommas {text : List Char}
    (closing : beforeClosing text = true) :
    beforeClosing (mapCode dropDanglingCommas text) = true := by
  have keeps {char : Char} (noQuote : char ≠ '"') (noComma : char ≠ ',') (rest : List Char) :
      mapCode dropDanglingCommas (char :: rest) = char :: mapCode dropDanglingCommas rest := by
    rw [mapCode_dropDanglingCommas_cons noQuote, if_neg fun comma => noComma comma.1]
  refine beforeClosing_of_keeps rfl (fun char rest blank => ?_) (fun char rest closes => ?_)
    closing
  · exact keeps (by rintro rfl; cases blank) (by rintro rfl; cases blank) rest
  · exact ⟨_, keeps (by rintro rfl; cases closes) (by rintro rfl; cases closes) rest⟩

namespace Padded

/-- Where a dangling comma was dropped, the blanks behind it still stand in front
of the closing sign. -/
theorem dropDanglingCommas (related : Padded loose tight padded) {other : Bool}
    (place : loose = true → other = true ∨ beforeClosing tight = true) :
    Padded other (mapCode dropDanglingCommas tight)
      (mapCode dropDanglingCommas padded) := by
  induction related generalizing other with
  | same _ text => exact .same other _
  | stop _ first second =>
      rw [mapCode_dropDanglingCommas_cons (by decide),
        mapCode_dropDanglingCommas_cons (by decide), if_neg (by simp),
        if_neg (by simp)]
      exact .stop other _ _
  | @keep loose char tight padded code rest ih =>
      rw [mapCode_dropDanglingCommas_cons code, mapCode_dropDanglingCommas_cons code,
        ← rest.firstVisible_eq]
      split
      next dangling =>
        apply ih
        intro _
        right
        rcases dangling.2 with sign | sign <;> simp [beforeClosing, sign, closesGap]
      next =>
        apply Padded.keep code
        apply ih
        intro loosened
        cases opens : opensGap char with
        | true => exact .inl (by simp [loosens, opens])
        | false =>
            simp only [loosens, opens, Bool.false_or, Bool.and_eq_true] at loosened
            rw [loosens_blank loosened.2]
            rw [beforeClosing_blank loosened.2] at place
            exact place loosened.1
  | @pad loose char tight padded separates before rest ih =>
      have blank := isBlank_of_isSeparator separates
      rw [mapCode_dropDanglingCommas_cons (by rintro rfl; cases blank),
        if_neg (by rintro ⟨rfl, -⟩; cases blank)]
      apply Padded.pad separates
      · rcases before with loosened | closing
        · exact (place loosened).imp_right beforeClosing_dropDanglingCommas
        · exact .inr (beforeClosing_dropDanglingCommas closing)
      · exact ih place
  | @literal loose body tight padded inside rest ih =>
      have passed := mapCode_literal Relaxed.dropDanglingCommas rfl
        List.not_mem_nil inside
      simp only [List.nil_append, List.cons_append] at passed
      have nothing : Relaxed.dropDanglingCommas [] = [] := rfl
      rw [passed, passed, nothing]
      exact .literal inside (ih (absurd · Bool.false_ne_true))

end Padded

/-! ## Bare keys -/

theorem leadingCode_append {code : List Char} (noQuote : '"' ∉ code)
    (rest : List Char) : leadingCode (code ++ rest) = code ++ leadingCode rest := by
  apply List.takeWhile_append_of_pos
  intro char member
  simpa using fun quote : char = '"' => noQuote (quote ▸ member)

theorem behindCode_append {code : List Char} (noQuote : '"' ∉ code)
    (rest : List Char) : behindCode (code ++ rest) = behindCode rest := by
  apply List.dropWhile_append_of_pos
  intro char member
  simpa using fun quote : char = '"' => noQuote (quote ▸ member)

theorem stops_leadingCode {test : Char → Bool} (stops : Stops test rest) :
    Stops test (leadingCode rest) := by
  cases rest with
  | nil => exact stops_nil
  | cons char rest =>
      by_cases quote : char = '"'
      · rw [quote]
        exact stops_nil
      · rw [leadingCode_cons quote]
        exact stops_cons (stops char rfl)

theorem isSolid_of_isKeyChar (inKey : isKeyChar char = true) : isSolid char = true := by
  apply isSolid_of_isNamePart
  simp only [isKeyChar, Bool.or_eq_true, beq_iff_eq] at inKey
  rcases inKey with (letter | rfl) | rfl
  · exact isNamePart_of_isAlphanum letter
  · rfl
  · rfl

/-- Whether a key begins is seen in the code up to the next literal. -/
theorem beginsKey_leadingCode (rest : List Char) :
    beginsKey (char :: leadingCode rest) = beginsKey (char :: rest) := by
  cases inKey : isKeyChar char with
  | false => simp [beginsKey, inKey]
  | true =>
      have run : ∀ next ∈ rest.takeWhile isKeyChar, isKeyChar next = true :=
        fun _ => List.mem_takeWhile_imp
      have stops := stops_dropWhile isKeyChar rest
      have whole := List.takeWhile_append_dropWhile (p := isKeyChar) (l := rest)
      have left := dropWhile_run run (stops_leadingCode stops)
      rw [← leadingCode_append (notMem_of_forall run rfl), whole] at left
      simp [beginsKey, inKey, left, colonFollows_leadingCode]

/-- Quotes the bare keys of all code, from a given place in code on. -/
def quoteKeysFrom (scan : KeyScan) (text : List Char) : List Char :=
  quoteSlotKeysFrom scan (leadingCode text) ++ mapCode quoteSlotKeys (behindCode text)

theorem mapCode_quoteSlotKeys (text : List Char) :
    mapCode quoteSlotKeys text = quoteKeysFrom .elsewhere text :=
  mapCode_eq rfl text

theorem quoteKeysFrom_skip {scan : KeyScan} (noKey : scan ≠ .key) (noQuote : char ≠ '"')
    (different : scan = .slot → beginsKey (char :: rest) = false) :
    quoteKeysFrom scan (char :: rest) =
      char :: quoteKeysFrom (scan.afterChar char) rest := by
  rw [quoteKeysFrom, leadingCode_cons noQuote, behindCode_cons noQuote,
    quoteSlotKeysFrom_skip noKey (by rwa [beginsKey_leadingCode]), quoteKeysFrom,
    List.cons_append]

theorem quoteKeysFrom_key {name : List Char} (nonempty : name ≠ [])
    (allowed : ∀ char ∈ name, isKeyChar char = true)
    (ends : Stops isKeyChar rest) (colon : colonFollows rest = true) :
    quoteKeysFrom .slot (name ++ rest) =
      '"' :: (name ++ '"' :: quoteKeysFrom .elsewhere rest) := by
  have noQuote := notMem_of_forall allowed rfl
  rw [quoteKeysFrom, leadingCode_append noQuote, behindCode_append noQuote,
    quoteSlotKeysFrom_bare nonempty allowed (stops_leadingCode ends)
      (by rwa [colonFollows_leadingCode]), quoteKeysFrom]
  simp

theorem quoteKeysFrom_literal (scan : KeyScan) (inside : LiteralBody '"' body)
    (rest : List Char) :
    quoteKeysFrom scan ('"' :: (body ++ '"' :: rest)) =
      '"' :: (body ++ '"' :: quoteKeysFrom .elsewhere rest) := by
  have passed := mapCode_literal quoteSlotKeys rfl List.not_mem_nil inside rest
  have nothing : quoteSlotKeysFrom scan [] = [] := by cases scan <;> rfl
  simp only [List.nil_append, List.cons_append] at passed
  have noCode : leadingCode ('"' :: (body ++ '"' :: rest)) = [] := rfl
  have whole : behindCode ('"' :: (body ++ '"' :: rest)) =
    '"' :: (body ++ '"' :: rest) := rfl
  rw [quoteKeysFrom, noCode, whole, nothing, passed, mapCode_quoteSlotKeys]
  rfl

theorem not_isKeyChar_of_blank (blank : isBlank char = true) : isKeyChar char = false := by
  rw [Bool.eq_false_iff]
  intro inKey
  have solid := isSolid_of_isKeyChar inKey
  simp [isSolid, blank] at solid

theorem afterChar_blank {scan : KeyScan} (noKey : scan ≠ .key)
    (blank : isBlank char = true) : scan.afterChar char = scan := by
  have noSign : char ≠ '{' ∧ char ≠ ',' := by
    constructor <;> rintro rfl <;> cases blank
  cases scan with
  | key => exact absurd rfl noKey
  | slot => simp [KeyScan.afterChar, noSign, blank]
  | elsewhere => simp [KeyScan.afterChar, noSign]

theorem afterChar_ne_key (scan : KeyScan) (char : Char) :
    scan.afterChar char ≠ .key := by
  unfold KeyScan.afterChar
  repeat' split
  all_goals nofun

theorem beforeClosing_quoteKeysFrom {scan : KeyScan} (noKey : scan ≠ .key)
    {text : List Char} (closing : beforeClosing text = true) :
    beforeClosing (quoteKeysFrom scan text) = true := by
  have empty : quoteKeysFrom scan [] = [] := by cases scan <;> rfl
  refine beforeClosing_of_keeps empty (fun char rest blank => ?_) (fun char rest closes => ?_)
    closing
  · rw [quoteKeysFrom_skip noKey (by rintro rfl; cases blank)
      fun _ => beginsKey_of_not_key (not_isKeyChar_of_blank blank) rest,
      afterChar_blank noKey blank]
  · have noLetter : isKeyChar char = false := by
      rcases closesGap_iff.mp closes with rfl | rfl <;> rfl
    exact ⟨_, quoteKeysFrom_skip noKey (by rintro rfl; cases closes)
      fun _ => beginsKey_of_not_key noLetter rest⟩

namespace Padded

theorem beginsKey_eq (rest : Padded (loosens loose char) tight padded) :
    beginsKey (char :: tight) = beginsKey (char :: padded) := by
  cases inKey : isKeyChar char with
  | false => simp [beginsKey, inKey]
  | true =>
      have dropped := (rest.run (fun _ => isSolid_of_isKeyChar)
        (loosens_solid (isSolid_of_isKeyChar inKey) loose)).2
      simp [beginsKey, inKey, dropped.colonFollows_eq]

theorem quoteKey {scan : KeyScan} (slot : scan = .slot)
    (begins : beginsKey (char :: tight) = true)
    (rest : Padded (loosens loose char) tight padded)
    (later : Padded false (tight.dropWhile isKeyChar) (padded.dropWhile isKeyChar) →
      Padded false (quoteKeysFrom .elsewhere (tight.dropWhile isKeyChar))
        (quoteKeysFrom .elsewhere (padded.dropWhile isKeyChar))) :
    Padded loose (quoteKeysFrom scan (char :: tight))
      (quoteKeysFrom scan (char :: padded)) := by
  simp only [beginsKey, List.head?_cons, Option.any_some, Bool.and_eq_true] at begins
  obtain ⟨inKey, colon⟩ := begins
  rw [List.dropWhile_cons_of_pos inKey] at colon
  obtain ⟨taken, dropped⟩ := rest.run (fun _ => isSolid_of_isKeyChar)
    (loosens_solid (isSolid_of_isKeyChar inKey) loose)
  have allowed : ∀ next ∈ char :: tight.takeWhile isKeyChar, isKeyChar next = true :=
    List.forall_mem_cons.mpr ⟨inKey, fun _ => List.mem_takeWhile_imp⟩
  have quoted : ∀ text : List Char, tight.takeWhile isKeyChar = text.takeWhile isKeyChar →
      colonFollows (text.dropWhile isKeyChar) = true →
      quoteKeysFrom scan (char :: text) = '"' :: (char :: tight.takeWhile isKeyChar ++
        '"' :: quoteKeysFrom .elsewhere (text.dropWhile isKeyChar)) := by
    intro text same follows
    rw [slot, ← quoteKeysFrom_key (by simp) allowed (stops_dropWhile _ text) follows,
      List.cons_append, same, List.takeWhile_append_dropWhile]
  rw [quoted tight rfl colon, quoted padded taken (by rwa [← dropped.colonFollows_eq])]
  refine .literal (LiteralBody.of_plain ?_) (later dropped)
  intro next member
  constructor <;>
  · rintro rfl
    have inName := allowed _ member
    cases inName

/-- Bare keys are quoted with their padding around them. -/
theorem quoteKeysFrom (related : Padded loose tight padded) {scan : KeyScan}
    (noKey : scan ≠ .key) :
    Padded loose (quoteKeysFrom scan tight) (quoteKeysFrom scan padded) := by
  induction length : padded.length using Nat.strongRecOn
    generalizing loose tight padded scan with
  | _ size ih =>
  cases related with
  | same _ text => exact .same loose _
  | stop _ first second =>
      rw [quoteKeysFrom_skip noKey (by decide) fun _ => beginsKey_of_not_key rfl _,
        quoteKeysFrom_skip noKey (by decide) fun _ => beginsKey_of_not_key rfl _]
      exact .stop loose _ _
  | @keep _ char tight padded code rest =>
      rw [List.length_cons] at length
      by_cases key : scan = .slot ∧ beginsKey (char :: tight) = true
      · apply rest.quoteKey key.1 key.2
        intro dropped
        have shorter := length_dropWhile isKeyChar padded
        exact ih _ (by omega) dropped nofun rfl
      · have noKeyHere : scan = .slot → beginsKey (char :: tight) = false := by
          intro slot
          simpa using fun begins => key ⟨slot, begins⟩
        rw [quoteKeysFrom_skip noKey code noKeyHere,
          quoteKeysFrom_skip noKey code (by rwa [← rest.beginsKey_eq])]
        exact .keep code (ih _ (by omega) rest (afterChar_ne_key scan char) rfl)
  | @pad _ char tight padded separates place rest =>
      have blank := isBlank_of_isSeparator separates
      rw [List.length_cons] at length
      rw [quoteKeysFrom_skip noKey (by rintro rfl; cases blank)
          fun _ => beginsKey_of_not_key (not_isKeyChar_of_blank blank) padded,
        afterChar_blank noKey blank]
      exact .pad separates (place.imp_right (beforeClosing_quoteKeysFrom noKey))
        (ih _ (by omega) rest noKey rfl)
  | @literal _ body tight padded inside rest =>
      simp only [List.length_cons, List.length_append] at length
      rw [quoteKeysFrom_literal scan inside, quoteKeysFrom_literal scan inside]
      exact .literal inside (ih _ (by omega) rest nofun rfl)

end Padded

section Words

variable {change : (word following : List Char) → List Char}

theorem mapWords_nil (change : (word following : List Char) → List Char) :
    mapWords change [] = [] := by
  rw [mapWords]

theorem mapCode_mapWords_skip (noQuote : char ≠ '"') (other : isNamePart char = false)
    (rest : List Char) :
    mapCode (mapWords change) (char :: rest) =
      char :: mapCode (mapWords change) rest := by
  have empty := mapWords_nil change
  rw [mapCode_eq empty (char :: rest), mapCode_eq empty rest, leadingCode_cons noQuote,
    behindCode_cons noQuote, mapWords_skip other, List.cons_append]

/-- A change of words that looks only for a colon behind them. -/
def SeesColon (change : (word following : List Char) → List Char) : Prop :=
  ∀ word first second, colonFollows first = colonFollows second →
    change word first = change word second

theorem mapCode_mapWords_word (sees : SeesColon change) {word : List Char}
    (nonempty : word ≠ []) (parts : ∀ char ∈ word, isNamePart char = true)
    (stops : Stops isNamePart rest) :
    mapCode (mapWords change) (word ++ rest) =
      change word rest ++ mapCode (mapWords change) rest := by
  have empty := mapWords_nil change
  have noQuote := notMem_of_forall parts rfl
  rw [mapCode_eq empty (word ++ rest), mapCode_eq empty rest,
    leadingCode_append noQuote, behindCode_append noQuote,
    mapWords_name nonempty parts (stops_leadingCode stops),
    sees word _ _ (colonFollows_leadingCode rest), List.append_assoc]

theorem not_isNamePart_of_blank (blank : isBlank char = true) :
    isNamePart char = false := by
  rw [Bool.eq_false_iff]
  intro part
  rw [isBlank_of_isNamePart part] at blank
  cases blank

theorem beforeClosing_mapWords {text : List Char} (closing : beforeClosing text = true) :
    beforeClosing (mapCode (mapWords change) text) = true := by
  refine beforeClosing_of_keeps rfl (fun char rest blank => ?_) (fun char rest closes => ?_)
    closing
  · exact mapCode_mapWords_skip (by rintro rfl; cases blank)
      (not_isNamePart_of_blank blank) rest
  · have noPart : isNamePart char = false := by
      rcases closesGap_iff.mp closes with rfl | rfl <;> rfl
    exact ⟨_, mapCode_mapWords_skip (by rintro rfl; cases closes) noPart rest⟩

/-- A change of words that may be padded behind what it makes of a word. -/
def KeepsPadding (change : (word following : List Char) → List Char) : Prop :=
  ∀ {word following tight padded : List Char} (loose : Bool),
    (∀ char ∈ word, isNamePart char = true) → Padded false tight padded →
      Padded loose (change word following ++ tight) (change word following ++ padded)

/-- Words are changed with their padding around them. -/
theorem Padded.mapWords (sees : SeesColon change) (keeps : KeepsPadding change)
    (related : Padded loose tight padded) :
    Padded loose (mapCode (mapWords change) tight) (mapCode (mapWords change) padded) := by
  induction length : padded.length using Nat.strongRecOn
    generalizing loose tight padded with
  | _ size ih =>
  cases related with
  | same _ text => exact .same loose _
  | stop _ first second =>
      rw [mapCode_mapWords_skip (by decide) rfl, mapCode_mapWords_skip (by decide) rfl]
      exact .stop loose _ _
  | @keep _ char tight padded code rest =>
      rw [List.length_cons] at length
      cases part : isNamePart char with
      | false =>
          rw [mapCode_mapWords_skip code part, mapCode_mapWords_skip code part]
          exact .keep code (ih _ (by omega) rest rfl)
      | true =>
          obtain ⟨taken, dropped⟩ := rest.run (fun _ => isSolid_of_isNamePart)
            (loosens_solid (isSolid_of_isNamePart part) loose)
          have parts : ∀ next ∈ char :: tight.takeWhile isNamePart,
              isNamePart next = true :=
            List.forall_mem_cons.mpr ⟨part, fun _ => List.mem_takeWhile_imp⟩
          have changed : ∀ text : List Char,
              tight.takeWhile isNamePart = text.takeWhile isNamePart →
              colonFollows (tight.dropWhile isNamePart) =
                colonFollows (text.dropWhile isNamePart) →
              mapCode (Relaxed.mapWords change) (char :: text) =
                change (char :: tight.takeWhile isNamePart)
                    (tight.dropWhile isNamePart) ++
                  mapCode (Relaxed.mapWords change) (text.dropWhile isNamePart) := by
            intro text same colon
            rw [sees _ _ _ colon, ← mapCode_mapWords_word sees (by simp) parts
              (stops_dropWhile _ text), List.cons_append, same,
              List.takeWhile_append_dropWhile]
          have shorter := length_dropWhile isNamePart padded
          rw [changed tight rfl rfl, changed padded taken dropped.colonFollows_eq]
          exact keeps loose parts (ih _ (by omega) dropped rfl)
  | @pad _ char tight padded separates place rest =>
      have blank := isBlank_of_isSeparator separates
      rw [List.length_cons] at length
      rw [mapCode_mapWords_skip (by rintro rfl; cases blank)
        (not_isNamePart_of_blank blank)]
      exact .pad separates (place.imp_right beforeClosing_mapWords)
        (ih _ (by omega) rest rfl)
  | @literal _ body tight padded inside rest =>
      have passed := mapCode_literal (Relaxed.mapWords change) (mapWords_nil change)
        List.not_mem_nil inside
      simp only [List.nil_append, List.cons_append, mapWords_nil] at passed
      simp only [List.length_cons, List.length_append] at length
      rw [passed, passed]
      exact .literal inside (ih _ (by omega) rest rfl)

end Words

theorem seesColon_respellWord : SeesColon respellWord := by
  intro word first second same
  rw [respellWord, respellWord, same]

theorem seesColon_quoteWord : SeesColon quoteWord := by
  intro word first second same
  rw [quoteWord, quoteWord, same]

theorem keepsPadding_respellWord : KeepsPadding respellWord := by
  intro word following tight padded loose parts related
  exact related.prepend (notMem_respellWord parts following)

theorem keepsPadding_quoteWord : KeepsPadding quoteWord := by
  intro word following tight padded loose parts related
  rw [quoteWord]
  split
  next =>
    have inside : LiteralBody '"' word := by
      apply LiteralBody.of_plain
      intro char member
      constructor <;>
      · rintro rfl
        have part := parts _ member
        cases part
    simpa using Padded.literal inside related
  next => exact related.prepend (notMem_of_forall parts rfl)

/-! ## The passes over code -/

namespace Padded

/-- The regular pass over the code of a document. -/
theorem repairCode (related : Padded loose tight padded) :
    Padded loose (mapCode repairCode tight) (mapCode repairCode padded) := by
  have passes : ∀ text, mapCode Relaxed.repairCode text =
      Relaxed.quoteKeysFrom .elsewhere (mapCode Relaxed.dropDanglingCommas text) := by
    intro text
    rw [← mapCode_quoteSlotKeys]
    exact (mapCode_mapCode rfl rfl (fun _ => notMem_dropDanglingCommas) text).1.symm
  rw [passes, passes]
  exact (related.dropDanglingCommas .inl).quoteKeysFrom nofun

/-- The second pass over the words of a document. -/
theorem repairWords (related : Padded loose tight padded) :
    Padded loose (mapCode repairWords tight) (mapCode repairWords padded) := by
  have passes : ∀ text, mapCode Relaxed.repairWords text =
      mapCode (Relaxed.mapWords quoteWord) (mapCode (Relaxed.mapWords respellWord) text) :=
    fun text => (mapCode_mapCode (mapWords_nil _) (mapWords_nil _)
      (fun _ => notMem_mapWords_respellWord) text).1.symm
  rw [passes, passes]
  exact (related.mapWords seesColon_respellWord keepsPadding_respellWord).mapWords
    seesColon_quoteWord keepsPadding_quoteWord

end Padded

end TwinSchema.Relaxed
