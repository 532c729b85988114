import Mathlib.Data.List.Infix
import Mathlib.Data.List.Nodup
import Mathlib.Data.List.TakeWhile
import TwinSchema.Proofs.Source.Blanks
import TwinSchema.Proofs.Source.Telling

/-!
# Named properties

The properties that a text names are the vocabulary names in it with a colon behind
them, in the order in which they first occur. No name ends in another one, so a
search that goes on behind the colon of each name misses none, and what is appended
to a text only adds properties at the end.
-/

namespace TwinSchema.Source

open Text

/-- Whether a text begins with a name, any blanks and a colon, and goes on with
another text. -/
def Labels (name text behind : List Char) : Prop :=
  ∃ blanks, (∀ char ∈ blanks, isBlank char = true) ∧ text = name ++ (blanks ++ ':' :: behind)

/-- The characters of which names are made, as far as labels go. -/
def isLabelPart (char : Char) : Bool := !isBlank char && char != ':'

theorem isLabelPart_of_mem_vocabulary :
    ∀ entry ∈ vocabulary, entry.1.toList ≠ [] ∧
      ∀ char ∈ entry.1.toList, isLabelPart char = true := by
  have checked : ∀ entry ∈ vocabulary,
      entry.1.toList ≠ [] ∧ entry.1.toList.all isLabelPart = true := by decide
  exact fun entry member =>
    ⟨(checked entry member).1, List.all_eq_true.mp (checked entry member).2⟩

/-- No name ends in another one. -/
theorem eq_of_suffix_vocabulary :
    ∀ entry ∈ vocabulary, ∀ other ∈ vocabulary,
      other.1.toList <:+ entry.1.toList → other.1 = entry.1 := by
  decide

theorem nodup_vocabulary : (vocabulary.map Prod.fst).Nodup := by decide

/-- No name goes on over blanks or a colon. -/
theorem stops_label {blanks : List Char} (blank : ∀ char ∈ blanks, isBlank char = true)
    (behind : List Char) : Stops isLabelPart (blanks ++ ':' :: behind) := by
  cases blanks with
  | nil => exact stops_cons rfl
  | cons char blanks =>
      exact stops_cons (by simp [isLabelPart, blank char List.mem_cons_self])

namespace Labels

variable {name text behind : List Char}

/-- The name of a label is all that stands before the first blank or colon. -/
theorem takeWhile_eq (labels : Labels name text behind)
    (parts : ∀ char ∈ name, isLabelPart char = true) : text.takeWhile isLabelPart = name := by
  obtain ⟨blanks, blank, rfl⟩ := labels
  exact takeWhile_run parts (stops_label blank behind)

theorem append (labels : Labels name text behind) (more : List Char) :
    Labels name (text ++ more) (behind ++ more) := by
  obtain ⟨blanks, blank, rfl⟩ := labels
  exact ⟨blanks, blank, by simp⟩

theorem mem_colon (labels : Labels name text behind) : ':' ∈ text := by
  obtain ⟨blanks, -, rfl⟩ := labels
  simp

end Labels

/-- Two names do not stand at one place. -/
theorem eq_of_labels {entry other : String × Node} (member : entry ∈ vocabulary)
    (second : other ∈ vocabulary) {text behind rest : List Char}
    (labels : Labels entry.1.toList text behind) (labelsToo : Labels other.1.toList text rest) :
    entry = other := by
  have first := labels.takeWhile_eq (isLabelPart_of_mem_vocabulary entry member).2
  rw [labelsToo.takeWhile_eq (isLabelPart_of_mem_vocabulary other second).2] at first
  exact List.inj_on_of_nodup_map nodup_vocabulary member second
    (String.toList_injective first.symm)

/-- What stands behind a name, any blanks and a colon at the front of a text. -/
def behindLabel? (name text : List Char) : Option (List Char) :=
  (dropWord? name text).bind fun rest => dropChar? ':' (trimLeft rest)

theorem behindLabel?_eq_some_iff {name text behind : List Char} :
    behindLabel? name text = some behind ↔ Labels name text behind := by
  rw [behindLabel?, Option.bind_eq_some_iff]
  constructor
  · rintro ⟨rest, named, colon⟩
    refine ⟨rest.takeWhile isBlank, fun char member => List.mem_takeWhile_imp member, ?_⟩
    have split : rest.takeWhile isBlank ++ trimLeft rest = rest :=
      List.takeWhile_append_dropWhile
    rw [dropWord?_eq_some named, ← dropChar?_eq_some colon, split]
  · rintro ⟨blanks, blank, rfl⟩
    refine ⟨_, Relaxed.dropWord?_append _ _, ?_⟩
    rw [trimLeft_blanks blank, trimLeft_of_stops (stops_cons rfl), dropChar?, if_pos rfl]

/-- The vocabulary name that labels the front of a text, with what stands behind its
colon. -/
def label? (text : List Char) : Option ((String × Node) × List Char) :=
  vocabulary.findSome? fun entry =>
    (behindLabel? entry.1.toList text).map fun behind => (entry, behind)

theorem label?_eq_some_iff {text behind : List Char} {entry : String × Node} :
    label? text = some (entry, behind) ↔
      entry ∈ vocabulary ∧ Labels entry.1.toList text behind := by
  have sound {entry : String × Node} {behind : List Char}
      (found : label? text = some (entry, behind)) :
      entry ∈ vocabulary ∧ Labels entry.1.toList text behind := by
    obtain ⟨other, member, found⟩ := List.exists_of_findSome?_eq_some found
    obtain ⟨rest, labels, same⟩ := Option.map_eq_some_iff.mp found
    cases same
    exact ⟨member, behindLabel?_eq_some_iff.mp labels⟩
  refine ⟨sound, fun ⟨member, labels⟩ => ?_⟩
  have here := behindLabel?_eq_some_iff.mpr labels
  cases found : label? text with
  | none =>
      have nowhere := List.findSome?_eq_none_iff.mp found entry member
      rw [here] at nowhere
      cases nowhere
  | some pair =>
      obtain ⟨other, rest⟩ := pair
      obtain ⟨second, labelsToo⟩ := sound found
      obtain rfl := eq_of_labels member second labels labelsToo
      rw [behindLabel?_eq_some_iff.mpr labelsToo] at here
      cases here
      rfl

theorem firstVisible_beq (sign : Char) (text : List Char) :
    (firstVisible text == some sign) = (dropChar? sign (trimLeft text)).isSome := by
  rw [firstVisible, List.find?_eq_head?_dropWhile_not]
  simp only [Bool.not_not]
  rw [trimLeft]
  cases text.dropWhile isBlank with
  | nil => rfl
  | cons char rest => by_cases same : char = sign <;> simp [dropChar?, same]

theorem nameAt?_eq (text : List Char) : nameAt? text = (label? text).map Prod.fst := by
  have test : nameAt? text =
      vocabulary.find? fun entry => (behindLabel? entry.1.toList text).isSome := by
    rw [nameAt?]
    refine List.find?_congr fun entry _ => ?_
    simp only [behindLabel?]
    cases dropWord? entry.1.toList text with
    | none => rfl
    | some rest => exact firstVisible_beq ':' rest
  rw [test, label?]
  induction vocabulary with
  | nil => rfl
  | cons entry vocabulary ih =>
      rw [List.find?_cons, List.findSome?_cons]
      cases behindLabel? entry.1.toList text with
      | none => exact ih
      | some behind => rfl

theorem nameAt?_eq_some_iff {text : List Char} {entry : String × Node} :
    nameAt? text = some entry ↔
      entry ∈ vocabulary ∧ ∃ behind, Labels entry.1.toList text behind := by
  rw [nameAt?_eq, Option.map_eq_some_iff]
  constructor
  · rintro ⟨⟨other, behind⟩, found, rfl⟩
    obtain ⟨member, labels⟩ := label?_eq_some_iff.mp found
    exact ⟨member, behind, labels⟩
  · rintro ⟨member, behind, labels⟩
    exact ⟨(entry, behind), label?_eq_some_iff.mpr ⟨member, labels⟩, rfl⟩

/-! ## A search without overlaps -/

theorem length_label? {text behind : List Char} {entry : String × Node}
    (found : label? text = some (entry, behind)) : behind.length < text.length := by
  obtain ⟨-, blanks, -, rfl⟩ := label?_eq_some_iff.mp found
  simp only [List.length_append, List.length_cons]
  omega

/-- The vocabulary names that are found in a text by a search from left to right that
goes on behind the colon of each name. -/
def labels : List Char → List (String × Node)
  | [] => []
  | char :: rest =>
      match found : label? (char :: rest) with
      | some (entry, behind) =>
          have := length_label? found
          entry :: labels behind
      | none => labels rest
termination_by text => text.length
decreasing_by
  · assumption
  · exact Nat.lt_succ_self _

theorem occurrences_append {text rest : List Char}
    (none : ∀ suffix, suffix <:+ text → nameAt? (suffix ++ rest) = none) :
    occurrences (text ++ rest) = occurrences rest := by
  induction text with
  | nil => rfl
  | cons char text ih =>
      have here := none _ (List.suffix_refl _)
      rw [List.cons_append] at here ⊢
      rw [occurrences, here]
      exact ih fun suffix isSuffix => none suffix (isSuffix.trans (List.suffix_cons _ _))

/-- No name begins in the middle of a label's name. -/
theorem nameAt?_suffix {entry : String × Node} (member : entry ∈ vocabulary)
    {suffix : List Char} (isSuffix : suffix <:+ entry.1.toList)
    (proper : suffix ≠ entry.1.toList) {blanks : List Char}
    (blank : ∀ char ∈ blanks, isBlank char = true) (behind : List Char) :
    nameAt? (suffix ++ (blanks ++ ':' :: behind)) = none := by
  cases found : nameAt? (suffix ++ (blanks ++ ':' :: behind)) with
  | none => rfl
  | some other =>
      obtain ⟨second, _, labels⟩ := nameAt?_eq_some_iff.mp found
      have parts := (isLabelPart_of_mem_vocabulary entry member).2
      have whole := labels.takeWhile_eq (isLabelPart_of_mem_vocabulary other second).2
      rw [takeWhile_run (fun char inside => parts char (isSuffix.subset inside))
        (stops_label blank behind)] at whole
      rw [whole] at isSuffix proper
      have same := eq_of_suffix_vocabulary entry member other second isSuffix
      exact absurd (congrArg String.toList same) proper

theorem nameAt?_colon (behind : List Char) : nameAt? (':' :: behind) = none := by
  cases found : nameAt? (':' :: behind) with
  | none => rfl
  | some other =>
      obtain ⟨second, _, labels⟩ := nameAt?_eq_some_iff.mp found
      obtain ⟨nonempty, parts⟩ := isLabelPart_of_mem_vocabulary other second
      exact absurd (labels.takeWhile_eq parts).symm nonempty

/-- No name begins inside a label. -/
theorem occurrences_label {char : Char} {rest behind : List Char} {entry : String × Node}
    (member : entry ∈ vocabulary) (labels : Labels entry.1.toList (char :: rest) behind) :
    occurrences rest = occurrences behind := by
  obtain ⟨blanks, blank, same⟩ := labels
  cases named : entry.1.toList with
  | nil => exact absurd named (isLabelPart_of_mem_vocabulary entry member).1
  | cons first name =>
      rw [named, List.cons_append] at same
      obtain ⟨rfl, rfl⟩ := List.cons.inj same
      have inName : occurrences (name ++ (blanks ++ ':' :: behind)) =
          occurrences (blanks ++ ':' :: behind) := by
        apply occurrences_append
        intro suffix isSuffix
        apply nameAt?_suffix member _ _ blank behind
        · rw [named]
          exact isSuffix.trans (List.suffix_cons _ _)
        · intro whole
          have length := isSuffix.length_le
          rw [whole, named, List.length_cons] at length
          exact absurd length (Nat.not_succ_le_self _)
      rw [inName, occurrences_blanks blank, occurrences, nameAt?_colon]

/-- A search without overlaps misses no name. -/
theorem labels_eq (text : List Char) : labels text = occurrences text := by
  fun_induction labels text with
  | case1 => rfl
  | case2 char rest entry behind found _ ih =>
      obtain ⟨member, label⟩ := label?_eq_some_iff.mp found
      rw [occurrences, nameAt?_eq, found, Option.map_some, ih, occurrences_label member label]
  | case3 char rest none ih =>
      rw [occurrences, nameAt?_eq, none, Option.map_none, ih]

def StandsAt (name : String) (text : List Char) (place : Nat) : Prop :=
  ∃ behind, Labels name.toList (text.drop place) behind

/-- The occurrences are the names at the front of what a text ends in. -/
theorem occurrences_eq_filterMap (text : List Char) :
    occurrences text = text.tails.filterMap nameAt? := by
  induction text with
  | nil => rfl
  | cons char text ih =>
      rw [occurrences, List.tails_cons, ih]
      cases found : nameAt? (char :: text) with
      | none => rw [List.filterMap_cons_none found]
      | some entry => rw [List.filterMap_cons_some found]

theorem mem_occurrences {text : List Char} {entry : String × Node} (member : entry ∈ vocabulary)
    {place : Nat} (stands : StandsAt entry.1 text place) : entry ∈ occurrences text := by
  rw [occurrences_eq_filterMap, List.mem_filterMap]
  exact ⟨text.drop place, (List.mem_tails _ _).mpr (List.drop_suffix place text),
    nameAt?_eq_some_iff.mpr ⟨member, stands⟩⟩

/-- An occurrence has a place, and what stands before that place is among the
occurrences in front. -/
theorem exists_place {text : List Char} {front back : List (String × Node)}
    {entry : String × Node} (split : occurrences text = front ++ entry :: back) :
    ∃ place, StandsAt entry.1 text place ∧
      ∀ other ∈ vocabulary, ∀ earlier < place, StandsAt other.1 text earlier → other ∈ front := by
  rw [occurrences_eq_filterMap, List.filterMap_eq_append_iff] at split
  obtain ⟨before, behind, tails, rfl, found⟩ := split
  obtain ⟨skipped, rest, after, rfl, skips, here, -⟩ := List.filterMap_eq_cons_iff.mp found
  rw [← List.append_assoc] at tails
  have drop {place : Nat} (inside : place < text.tails.length) :
      (before ++ skipped ++ rest :: after)[place]? = some (text.drop place) := by
    rw [← tails, List.getElem?_eq_getElem inside, List.getElem_tails]
  have length : (before ++ skipped).length < text.tails.length := by
    simp only [tails, List.length_append, List.length_cons]
    omega
  refine ⟨(before ++ skipped).length, ?_, fun other member earlier within there => ?_⟩
  · have last := drop length
    rw [List.getElem?_append_right (Nat.le_refl _), Nat.sub_self, List.getElem?_cons_zero] at last
    rw [StandsAt, ← Option.some.inj last]
    exact (nameAt?_eq_some_iff.mp here).2
  · have named := nameAt?_eq_some_iff.mpr ⟨member, there⟩
    have first := drop (Nat.lt_trans within length)
    rw [List.getElem?_append_left within] at first
    rcases List.mem_append.mp (List.mem_of_getElem? first) with inFront | inGap
    · exact List.mem_filterMap.mpr ⟨_, inFront, named⟩
    · rw [skips _ inGap] at named
      cases named

/-- Every name that is new is kept. -/
theorem mem_map_firstOfEach {α : Type} {seen : List String} {entries : List (String × α)}
    {entry : String × α} (member : entry ∈ entries) (unseen : entry.1 ∉ seen) :
    entry.1 ∈ (firstOfEach seen entries).map Prod.fst := by
  induction entries generalizing seen with
  | nil => cases member
  | cons first entries ih =>
      obtain ⟨name, content⟩ := first
      rw [firstOfEach]
      split
      next old =>
        rcases List.mem_cons.mp member with rfl | later
        · exact absurd old unseen
        · exact ih later unseen
      next =>
        rw [List.map_cons, List.mem_cons]
        by_cases same : entry.1 = name
        · exact .inl same
        · rcases List.mem_cons.mp member with rfl | later
          · exact absurd rfl same
          · exact .inr (ih later (by simp [same, unseen]))

/-- What is kept stands in the order of the entries: where one name comes before another
one, the other one is not in front of its first entry. -/
theorem pairwise_firstOfEach {α : Type} (seen : List String) (entries : List (String × α)) :
    (firstOfEach seen entries).Pairwise fun first second =>
      ∃ front back, entries = front ++ first :: back ∧ second.1 ∉ front.map Prod.fst := by
  induction entries generalizing seen with
  | nil => exact .nil
  | cons entry entries ih =>
      obtain ⟨name, content⟩ := entry
      have further {seen : List String} (old : name ∈ seen) :
          (firstOfEach seen entries).Pairwise fun first second =>
            ∃ front back, (name, content) :: entries = front ++ first :: back ∧
              second.1 ∉ front.map Prod.fst := by
        refine (ih seen).imp_of_mem fun _ inside => ?_
        rintro ⟨front, back, rfl, absent⟩
        refine ⟨(name, content) :: front, back, rfl, ?_⟩
        rw [List.map_cons, List.mem_cons, not_or]
        exact ⟨fun same => (mem_firstOfEach inside).2 (same ▸ old), absent⟩
      rw [firstOfEach]
      split
      next old => exact further old
      next =>
        refine .cons (fun _ _ => ⟨[], entries, rfl, List.not_mem_nil⟩) ?_
        exact further List.mem_cons_self

/-- More entries at the end only add to the end of what is kept. -/
theorem isPrefix_firstOfEach {α : Type} (seen : List String) {entries more : List (String × α)}
    (longer : entries <+: more) : firstOfEach seen entries <+: firstOfEach seen more := by
  induction entries generalizing seen more with
  | nil => exact List.nil_prefix
  | cons entry entries ih =>
      obtain ⟨name, content⟩ := entry
      obtain ⟨rest, rfl⟩ := longer
      rw [List.cons_append, firstOfEach, firstOfEach]
      have behind := List.prefix_append entries rest
      split
      next => exact ih seen behind
      next => exact List.cons_prefix_cons.mpr ⟨rfl, ih _ behind⟩

/-- A label that the end of a text cuts off leaves no colon in the text. -/
theorem Labels.of_append {name text more behind : List Char}
    (labels : Labels name (text ++ more) behind)
    (parts : ∀ char ∈ name, isLabelPart char = true) (colon : ':' ∈ text) :
    ∃ rest, Labels name text rest := by
  obtain ⟨blanks, blank, same⟩ := labels
  have noColon : ':' ∉ name ++ blanks := by
    rw [List.mem_append, not_or]
    exact ⟨fun member => absurd (parts _ member) (by decide),
      fun member => absurd (blank _ member) (by decide)⟩
  rw [← List.append_assoc, List.append_eq_append_iff] at same
  rcases same with ⟨cut, whole, -⟩ | ⟨rest, whole, tail⟩
  · exact absurd (whole ▸ List.mem_append_left cut colon) noColon
  · cases rest with
    | nil =>
        rw [List.append_nil] at whole
        exact absurd (whole ▸ colon) noColon
    | cons sign rest =>
        obtain ⟨rfl, -⟩ := List.cons.inj tail
        exact ⟨rest, blanks, blank, by rw [whole, List.append_assoc]⟩

theorem occurrences_eq_nil {text : List Char} (noColon : ':' ∉ text) : occurrences text = [] := by
  rw [occurrences_eq_filterMap, List.filterMap_eq_nil_iff]
  intro suffix member
  cases found : nameAt? suffix with
  | none => rfl
  | some entry =>
      obtain ⟨-, behind, labels⟩ := nameAt?_eq_some_iff.mp found
      exact absurd (((List.mem_tails _ _).mp member).subset labels.mem_colon) noColon

/-- A text that is appended adds occurrences at the end only. -/
theorem isPrefix_occurrences (text more : List Char) :
    occurrences text <+: occurrences (text ++ more) := by
  induction text with
  | nil => exact List.nil_prefix
  | cons char text ih =>
      by_cases colon : ':' ∈ char :: text
      · have same : nameAt? (char :: (text ++ more)) = nameAt? (char :: text) := by
          apply Option.ext
          intro entry
          rw [nameAt?_eq_some_iff, nameAt?_eq_some_iff]
          refine and_congr_right fun member => ⟨?_, ?_⟩
          · rintro ⟨behind, labels⟩
            exact labels.of_append (isLabelPart_of_mem_vocabulary entry member).2 colon
          · rintro ⟨behind, labels⟩
            exact ⟨_, labels.append more⟩
        rw [List.cons_append, occurrences, occurrences, same]
        split
        next => exact List.cons_prefix_cons.mpr ⟨rfl, ih⟩
        next => exact ih
      · rw [occurrences_eq_nil colon]
        exact List.nil_prefix

/-! ## The properties of a text -/

theorem mem_vocabulary_of_mem {text : List Char} {entry : String × Node}
    (member : entry ∈ namedProperties text) : entry ∈ vocabulary :=
  mem_of_mem_occurrences entry (mem_firstOfEach member).1

theorem mem_namedProperties_iff {text : List Char} {entry : String × Node} :
    entry ∈ namedProperties text ↔
      entry ∈ vocabulary ∧ ∃ place, StandsAt entry.1 text place := by
  constructor
  · intro member
    obtain ⟨front, back, split⟩ := List.append_of_mem (mem_firstOfEach member).1
    obtain ⟨place, stands, -⟩ := exists_place split
    exact ⟨mem_vocabulary_of_mem member, place, stands⟩
  · rintro ⟨member, place, stands⟩
    have kept := mem_map_firstOfEach (mem_occurrences member stands) List.not_mem_nil
    obtain ⟨other, inside, same⟩ := List.mem_map.mp kept
    obtain rfl :=
      List.inj_on_of_nodup_map nodup_vocabulary (mem_vocabulary_of_mem inside) member same
    exact inside

/-- A property that comes before another one has a place before all places of that one. -/
theorem pairwise_namedProperties (text : List Char) :
    (namedProperties text).Pairwise fun first second =>
      ∃ place, StandsAt first.1 text place ∧
        ∀ other, StandsAt second.1 text other → place < other := by
  have once : ((namedProperties text).map Prod.fst).Nodup := nodup_firstOfEach [] _
  have ordered := (pairwise_firstOfEach [] (occurrences text)).and (List.pairwise_map.mp once)
  refine ordered.imp_of_mem ?_
  rintro first second one two ⟨⟨front, back, split, absent⟩, apart⟩
  have known := mem_vocabulary_of_mem two
  obtain ⟨place, stands, before⟩ := exists_place split
  refine ⟨place, stands, fun other there => ?_⟩
  rcases Nat.lt_trichotomy place other with later | rfl | earlier
  · exact later
  · obtain ⟨_, labels⟩ := stands
    obtain ⟨_, labelsToo⟩ := there
    have same := eq_of_labels (mem_vocabulary_of_mem one) known labels labelsToo
    exact absurd (congrArg Prod.fst same) apart
  · exact absurd (List.mem_map_of_mem (before second known other earlier there)) absent

/-- A text names the vocabulary names that stand in it with a colon behind them, each of
them once and in the order of their first places, and a search that does not overlap
finds the same. What is appended to the text adds names at the end. -/
theorem namedProperties_places (text : List Char) :
    namedProperties text = firstOfEach [] (labels text) ∧
      (∀ entry, entry ∈ namedProperties text ↔
        entry ∈ vocabulary ∧ ∃ place, StandsAt entry.1 text place) ∧
      ((namedProperties text).map Prod.fst).Nodup ∧
      ((namedProperties text).Pairwise fun first second =>
        ∃ place, StandsAt first.1 text place ∧
          ∀ other, StandsAt second.1 text other → place < other) ∧
      ∀ more, namedProperties text <+: namedProperties (text ++ more) := by
  refine ⟨?_, fun entry => mem_namedProperties_iff, ?_, pairwise_namedProperties text,
    fun more => ?_⟩
  · rw [namedProperties, labels_eq]
  · exact nodup_firstOfEach [] _
  · exact isPrefix_firstOfEach [] (isPrefix_occurrences text more)

/-- Names inside of words, over line breaks, more than once and without a colon. -/
example :
    (namedProperties "co_author\n : post_id platforms:1 xplatform:2 author:3 post_id\t:".toList).map
      Prod.fst = ["author", "platform", "post_id"] := by
  decide +kernel

end TwinSchema.Source
