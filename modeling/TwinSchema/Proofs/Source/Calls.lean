import TwinSchema.Proofs.Source.Safe
import TwinSchema.Source.Chain

/-!
# Splitting written chains

A chain that was written is split into the calls that it was written from,
whatever blanks stand around it.
-/

namespace TwinSchema.Source

open Text

section Names

variable {name : List Char}

theorem stops_of_isName (named : isName name = true) (rest : List Char) :
    Stops isBlank (name ++ rest) := by
  cases name with
  | nil => cases named
  | cons first others =>
      have code := isCode_of_isName named first List.mem_cons_self
      exact stops_cons (isCode_iff.mp code).1

/-- A name is taken as a whole where something else follows. -/
theorem name?_append (named : isName name = true) {rest : List Char}
    (stops : Stops isNamePart rest) : name? (name ++ rest) = some (name, rest) := by
  cases name with
  | nil => cases named
  | cons first others =>
      rw [isName, Bool.and_eq_true, List.all_eq_true] at named
      rw [List.cons_append, name?, if_pos named.1,
        takeWhile_run named.2 stops, dropWhile_run named.2 stops]

theorem callName?_call (named : isName name = true) (text : List Char) :
    callName? (name ++ '(' :: text) = some (name, text) := by
  have bracket : Stops isNamePart ('(' :: text) := stops_cons (by decide)
  rw [callName?, trimLeft_of_stops (stops_of_isName named _),
    name?_append named bracket]
  rfl

theorem linkHead?_link (named : isName name = true) (text : List Char) :
    linkHead? ('.' :: (name ++ '(' :: text)) = some (name, text) := by
  rw [linkHead?, trimLeft_of_stops (stops_cons (by decide)), dropChar?,
    if_pos rfl]
  exact callName?_call named text

theorem constructorHead?_call (named : isName name = true) {before : List Char}
    (blank : ∀ char ∈ before, isBlank char = true) (text : List Char) :
    constructorHead? (before ++ 'z' :: '.' :: (name ++ '(' :: text)) =
      some (name, text) := by
  rw [constructorHead?, trimLeft_blanks blank,
    trimLeft_of_stops (stops_cons (by decide)), dropChar?, if_pos rfl]
  exact linkHead?_link named text

theorem segment?_name (named : isName name = true) {rest : List Char}
    (stops : Stops isNamePart rest) : segment? ('.' :: (name ++ rest)) = some rest := by
  rw [segment?, trimLeft_of_stops (stops_cons (by decide)), dropChar?, if_pos rfl]
  simp only
  rw [trimLeft_of_stops (stops_of_isName named rest), name?_append named stops]
  rfl

theorem pathEnd?_eq (before : Option (List Char)) (text : List Char) :
    pathEnd? before text =
      match segment? text with
      | some rest => pathEnd? (some text) rest
      | none => if pathMayEnd text then some text else before := by
  rw [pathEnd?.eq_def]
  split
  next found => simp only [found]
  next found => simp only [found]

end Names

/-- The links that are written for modifiers. -/
def linksOf (modifiers : Modifiers) : List Link :=
  (if modifiers.nullable then [⟨"nullable", []⟩] else []) ++
  (if modifiers.optional then [⟨"optional", []⟩] else []) ++
  (match modifiers.description with
    | some description => [⟨"description", Json.writeText description⟩]
    | none => [])

section Links

variable {after : List Char}

/-- Links are read one by one, as long as a name and an opening bracket follow. -/
theorem links?_eq (text : List Char) :
    links? text =
      match linkHead? text with
      | none => some []
      | some (name, opened) =>
          match splitClosing .code 0 opened with
          | none => none
          | some (arguments, rest) =>
              (links? rest).map fun others => ⟨String.ofList name, arguments⟩ :: others := by
  rw [links?.eq_def]
  split
  next found => rw [found]
  next name opened found =>
    conv_rhs => rw [found]
    simp only
    split
    next closed => simp only [closed]
    next arguments rest closed =>
      simp only [closed]
      cases links? rest <;> rfl

theorem links?_blanks (blank : ∀ char ∈ after, isBlank char = true) :
    links? after = some [] := by
  have nothing : linkHead? after = none := by
    have trimmed : trimLeft (after ++ []) = [] := trimLeft_blanks blank
    rw [List.append_nil] at trimmed
    rw [linkHead?, trimmed]
    rfl
  rw [links?_eq, nothing]

/-- A link that closes is the first of the links. -/
theorem links?_of_head {text name opened arguments rest : List Char}
    (head : linkHead? text = some (name, opened))
    (closes : splitClosing .code 0 opened = some (arguments, rest)) :
    links? text = (links? rest).map fun others => ⟨String.ofList name, arguments⟩ :: others := by
  rw [links?_eq, head]
  simp only [closes]

theorem links?_link {name : String} (named : isName name.toList = true)
    {surface : Char → Bool} {argument : List Char}
    (balanced : Balanced surface argument) (rest : List Char) :
    links? (link name argument ++ rest) =
      (links? rest).map fun others => ⟨name, argument⟩ :: others := by
  have head : linkHead? (link name argument ++ rest) =
      some (name.toList, argument ++ ')' :: rest) := by
    simpa [link] using linkHead?_link named (argument ++ ')' :: rest)
  rw [links?_of_head head (splitClosing_balanced balanced rfl rest), String.ofList_toList]

theorem balanced_writeText (surface : Char → Bool) (text : String) :
    Balanced surface (Json.writeText text) :=
  .literal (by decide) (Relaxed.literalBody_escaped text)

theorem links?_flag (flag : Bool) {name : String}
    (named : isName name.toList = true) {rest : List Char} {links : List Link}
    (later : links? rest = some links) :
    links? ((if flag then link name [] else []) ++ rest) =
      some ((if flag then [⟨name, []⟩] else []) ++ links) := by
  have nothing : Balanced isCode [] := .nil
  cases flag with
  | true => simp [links?_link named nothing, later]
  | false => simpa using later

theorem links?_modifiers (modifiers : Modifiers)
    (blank : ∀ char ∈ after, isBlank char = true) :
    links? (modifierLinks modifiers ++ after) = some (linksOf modifiers) := by
  obtain ⟨description, nullable, optional⟩ := modifiers
  simp only [modifierLinks, linksOf, List.append_assoc]
  refine links?_flag nullable (by decide) (links?_flag optional (by decide) ?_)
  cases description with
  | none => exact links?_blanks blank
  | some description =>
      simp only
      rw [links?_link (by decide) (balanced_writeText isCode description),
        links?_blanks blank]
      rfl

end Links

theorem splitChain_call {constructor : String}
    (named : isName constructor.toList = true) {surface : Char → Bool}
    {argument : List Char} (balanced : Balanced surface argument)
    (modifiers : Modifiers) {before after : List Char}
    (blankBefore : ∀ char ∈ before, isBlank char = true)
    (blankAfter : ∀ char ∈ after, isBlank char = true) :
    splitChain (before ++ (call constructor argument ++ modifierLinks modifiers) ++
      after) = some ⟨some ⟨constructor, argument⟩, linksOf modifiers⟩ := by
  have head := constructorHead?_call named blankBefore
    (argument ++ ')' :: (modifierLinks modifiers ++ after))
  have written : before ++ (call constructor argument ++ modifierLinks modifiers) ++
      after = before ++ 'z' :: '.' :: (constructor.toList ++ '(' ::
        (argument ++ ')' :: (modifierLinks modifiers ++ after))) := by
    simp [call]
  rw [written, splitChain, head]
  simp only
  rw [splitClosing_balanced balanced rfl]
  simp only
  rw [links?_modifiers modifiers blankAfter, Option.map_some, String.ofList_toList]

end TwinSchema.Source
