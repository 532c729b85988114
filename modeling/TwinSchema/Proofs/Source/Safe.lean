import TwinSchema.Proofs.Node.Valid
import TwinSchema.Proofs.Source.Sound

/-!
# Nodes that source text can tell

Source text tells a node when none of its strings holds an assignment to a
schema and no property name is an identifier with a line feed at its end. The
fragments of such nodes are sound.
-/

namespace TwinSchema

open Source Text

/-- Whether a string may stand in source text. -/
def isSafeText (text : String) : Bool := !holdsAssignment text.toList

/-- Whether a property name may stand in source text: it is no identifier with a
line feed at its end. -/
def isSafeName (name : String) : Bool :=
  isSafeText name &&
    !(isIdentifier name && name.toList.getLast? == some '\n')

/-- Whether a property name is no identifier with a line feed at its end. -/
def isPlainName (name : String) : Bool :=
  !(isIdentifier name && name.toList.getLast? == some '\n')

theorem isPlainName_of_isSafeName {name : String} (safe : isSafeName name = true) :
    isPlainName name = true :=
  (Bool.and_eq_true _ _ ▸ safe).2

/-- Whether the description of a node may stand in source text. -/
def Modifiers.isSafe (modifiers : Modifiers) : Bool :=
  modifiers.description.all isSafeText

/-- Whether a value without parts may stand in source text. -/
def Json.Scalar.isSafe : Json.Scalar → Bool
  | .text value => isSafeText value
  | _ => true

mutual

/-- Whether source text can tell a node. -/
def Node.isSafe : Node → Bool
  | .leaf modifiers _ => modifiers.isSafe
  | .literal modifiers value => modifiers.isSafe && value.isSafe
  | .enumeration modifiers choices =>
      modifiers.isSafe &&
        (choices.getD []).all fun choice => choice.toScalar.isSafe
  | .array modifiers none => modifiers.isSafe
  | .array modifiers (some items) => modifiers.isSafe && items.isSafe
  | .object modifiers properties =>
      modifiers.isSafe && areSafeProperties properties
  | .union modifiers none => modifiers.isSafe
  | .union modifiers (some members) => modifiers.isSafe && areSafeMembers members

/-- Whether source text can tell properties. -/
def areSafeProperties : List (String × Node) → Bool
  | [] => true
  | (name, node) :: rest => isSafeName name && node.isSafe && areSafeProperties rest

/-- Whether source text can tell the members of a union. -/
def areSafeMembers : List Node → Bool
  | [] => true
  | node :: rest => node.isSafe && areSafeMembers rest

end

namespace Source

theorem free_of_isSafeText {text : String} (safe : isSafeText text = true) :
    holdsAssignment text.toList = false := by
  simpa [isSafeText] using safe

/-- The visible characters that are not code. -/
def signs : List Char :=
  ['(', '[', '{', ')', ']', '}', '"', '\'', '\x60', '/', '=', ',', ';']

theorem isCode_of_notMem {char : Char} (visible : isBlank char = false)
    (apart : char ∉ signs) : isCode char = true := by
  simp only [signs, List.mem_cons, List.not_mem_nil, or_false, not_or] at apart
  simp [isCode, visible, isOpener, isCloser, sourceQuotes, apart]

theorem isCode_of_isNamePart {char : Char} (part : isNamePart char = true) :
    isCode char = true := by
  apply isCode_of_notMem (isBlank_of_isNamePart part)
  intro member
  have different : signs.any isNamePart = false := by decide
  exact List.any_eq_false.mp different char member part

theorem isCode_of_isWordLetter {char : Char}
    (letter : Relaxed.isWordLetter char = true) : isCode char = true := by
  apply isCode_of_notMem (Relaxed.isBlank_eq_false_of_isWordLetter letter)
  intro member
  have different : signs.any Relaxed.isWordLetter = false := by decide
  exact List.any_eq_false.mp different char member letter

/-- A text up to whose end an identifier goes on, if it ends in no line feed. -/
theorem isNamePart_of_namePartsToEnd {text : List Char}
    (toEnd : namePartsToEnd text = true) (noBreak : text.getLast? ≠ some '\n') :
    ∀ char ∈ text, isNamePart char = true := by
  fun_induction namePartsToEnd text with
  | case1 => simp
  | case2 => simp at noBreak
  | case3 char rest different ih =>
      rw [Bool.and_eq_true] at toEnd
      refine List.forall_mem_cons.mpr ⟨toEnd.1, ?_⟩
      cases rest with
      | nil => simp
      | cons next rest =>
          rw [List.getLast?_cons_cons] at noBreak
          exact ih toEnd.2 noBreak

theorem isCode_of_isName {name : List Char} (named : isName name = true) :
    ∀ char ∈ name, isCode char = true :=
  fun char member => isCode_of_isNamePart (isNamePart_of_isName named char member)

/-- An identifier without a line feed at its end is a name. -/
theorem isName_of_isIdentifier {name : String}
    (identifier : isIdentifier name = true) (plain : isPlainName name = true) :
    isName name.toList = true := by
  have noBreak : name.toList.getLast? ≠ some '\n' := by
    simpa [isPlainName, identifier] using plain
  rw [isIdentifier] at identifier
  split at identifier
  next => cases identifier
  next first rest same =>
    rw [Bool.and_eq_true] at identifier
    rw [same, isName, Bool.and_eq_true, List.all_eq_true]
    refine ⟨identifier.1, ?_⟩
    cases rest with
    | nil => simp
    | cons next rest =>
        rw [same, List.getLast?_cons_cons] at noBreak
        exact isNamePart_of_namePartsToEnd identifier.2 noBreak

/-- A word begins with a letter that begins no statement. -/
theorem exists_head_word (word : Relaxed.Word) :
    ∃ char others, word.text = char :: others ∧ char ∉ ['i', 'c', 'l', 'v'] := by
  cases word with
  | null => exact ⟨'n', _, rfl, by decide⟩
  | true => exact ⟨'t', _, rfl, by decide⟩
  | false => exact ⟨'f', _, rfl, by decide⟩
  | nan => exact ⟨'N', _, rfl, by decide⟩
  | infinity => exact ⟨'I', _, rfl, by decide⟩
  | negativeInfinity => exact ⟨'-', _, rfl, by decide⟩
  | number numeral =>
      obtain ⟨char, others, unsigned, digit⟩ := Relaxed.exists_unsigned numeral
      rw [Relaxed.Word.text_number, Relaxed.Numeral.text]
      cases numeral.negative with
      | true => exact ⟨'-', _, rfl, by decide⟩
      | false =>
          refine ⟨char, others, unsigned, ?_⟩
          intro member
          have noDigit : ['i', 'c', 'l', 'v'].any Json.isDigit = false := by decide
          exact List.any_eq_false.mp noDigit char member digit

theorem leads_quoted (text : String) : (Fragment.quoted text).Leads := by
  intro style level
  refine ⟨'"', _, rfl, by decide, by decide, ?_⟩
  intro rest
  exact calm_of_head (by decide) (by decide)

theorem sound_scalarFragment {value : Json.Scalar} (short : value.isShort = true)
    (safe : value.isSafe = true) :
    (scalarFragment value).Sound ∧ (scalarFragment value).Leads := by
  rcases Relaxed.exists_word short with ⟨text, rfl⟩ | ⟨word, written, meant⟩
  · exact ⟨.quoted (free_of_isSafeText safe), leads_quoted text⟩
  · have plain : scalarFragment value = .plain word.text := by
      rw [written]
      cases value with
      | text text =>
          have quote := Relaxed.isWordLetter_of_mem_word word '"'
            (by rw [written]; exact List.mem_cons_self)
          exact absurd quote (by decide)
      | _ => rfl
    have code : ∀ char ∈ word.text, isCode char = true := fun char member =>
      isCode_of_isWordLetter (Relaxed.isWordLetter_of_mem_word word char member)
    rw [plain]
    refine ⟨.plain code, ?_⟩
    intro style level
    obtain ⟨char, others, same, different⟩ := exists_head_word word
    obtain ⟨visible, -, noCloser, -, -⟩ :=
      isCode_iff.mp (code char (by rw [same]; exact List.mem_cons_self))
    refine ⟨char, others, same, visible, noCloser, ?_⟩
    intro rest
    refine calm_of_head ?_ different
    simp only [isInlineBlank, Bool.or_eq_false_iff, beq_eq_false_iff_ne]
    constructor <;> rintro rfl <;> cases visible

theorem sound_linkFragment {name : String} {argument : Fragment}
    (named : isName name.toList = true) (argumentSound : argument.Sound) :
    (linkFragment name argument).Sound :=
  .join (.plain (List.forall_mem_cons.mpr ⟨rfl, isCode_of_isName named⟩))
    (.called argumentSound)

theorem sound_nothing : (Fragment.plain []).Sound := .plain (by simp)

theorem sound_modifiersFragment {modifiers : Modifiers}
    (safe : modifiers.isSafe = true) : (modifiersFragment modifiers).Sound := by
  obtain ⟨description, nullable, optional⟩ := modifiers
  refine .join ?_ (.join ?_ ?_)
  · cases nullable with
    | true => exact sound_linkFragment (by decide) sound_nothing
    | false => exact sound_nothing
  · cases optional with
    | true => exact sound_linkFragment (by decide) sound_nothing
    | false => exact sound_nothing
  · cases description with
    | none => exact sound_nothing
    | some description =>
        exact sound_linkFragment (by decide) (.quoted (free_of_isSafeText safe))

theorem isName_of_mem_constructors :
    ∀ name ∈ constructors, isName name.toList = true := by
  decide

theorem sound_chainFragment {constructor : String} {argument : Fragment}
    {modifiers : Modifiers}
    (known : constructor ∈ constructors) (argumentSound : argument.Sound)
    (safe : modifiers.isSafe = true) :
    (chainFragment constructor argument modifiers).Sound := by
  refine .join (.plain ?_) (.join (.called argumentSound)
    (sound_modifiersFragment safe))
  exact List.forall_mem_cons.mpr ⟨by decide, List.forall_mem_cons.mpr
    ⟨by decide, isCode_of_isName (isName_of_mem_constructors _ known)⟩⟩

theorem leads_chainFragment (constructor : String) (argument : Fragment)
    (modifiers : Modifiers) :
    (chainFragment constructor argument modifiers).Leads := by
  intro style level
  refine ⟨'z', _, rfl, by decide, by decide, ?_⟩
  intro rest
  exact calm_of_head (by decide) (by decide)

theorem sound_property {name : String} (safe : isSafeName name = true)
    {content : Fragment} (contentSound : content.Sound) (leads : content.Leads) :
    (Fragment.labelled (keyFragment name) content).Sound ∧
      (Fragment.labelled (keyFragment name) content).Leads := by
  have free : isSafeText name = true := by
    rw [isSafeName, Bool.and_eq_true] at safe
    exact safe.1
  rw [keyFragment]
  split
  next identifier =>
    have named := isName_of_isIdentifier identifier (isPlainName_of_isSafeName safe)
    have code := isCode_of_isName named
    obtain ⟨first, rest, same⟩ : ∃ first rest, name.toList = first :: rest := by
      cases letters : name.toList with
      | nil => simp [letters, isName] at named
      | cons first rest => exact ⟨first, rest, rfl⟩
    refine ⟨.labelled (.plain code) contentSound leads, ?_⟩
    intro style level
    obtain ⟨visible, -, noCloser, -, -⟩ :=
      isCode_iff.mp (code first (by simp [same]))
    refine ⟨first, rest ++ ':' :: ' ' :: content.text style level, ?_, visible,
      noCloser, ?_⟩
    · simp [Fragment.text, same]
    · intro others
      have calm := calm_label
        (fun char member => (isCode_iff.mp (code char member)).1)
        (' ' :: content.text style level ++ others)
      simpa [same] using calm
  next =>
    refine ⟨.labelled (.quoted (free_of_isSafeText free)) contentSound leads, ?_⟩
    intro style level
    refine ⟨'"', _, rfl, by decide, by decide, ?_⟩
    intro rest
    exact calm_of_head (by decide) (by decide)

theorem sound_choices : {choices : List Choice} →
    (choices.all fun choice => choice.toScalar.isShort) = true →
    (choices.all fun choice => choice.toScalar.isSafe) = true →
    ∀ entry ∈ choices.map fun choice => scalarFragment choice.toScalar,
      entry.Sound ∧ entry.Leads := by
  intro choices short safe entry member
  obtain ⟨choice, inside, rfl⟩ := List.mem_map.mp member
  exact sound_scalarFragment (List.all_eq_true.mp short choice inside)
    (List.all_eq_true.mp safe choice inside)

theorem sound_bracketed {pair : Pair} {entries : List Fragment}
    (sound : ∀ entry ∈ entries, entry.Sound ∧ entry.Leads) :
    (Fragment.bracketed pair entries).Sound :=
  .bracketed (fun entry member => (sound entry member).2)
    (fun entry member => (sound entry member).1)

mutual

theorem sound_nodeFragment : (node : Node) → node.isValid = true →
    node.isSafe = true → (nodeFragment node).Sound
  | .leaf modifiers kind, _, safe =>
      sound_chainFragment (mem_constructors _) sound_nothing safe
  | .literal modifiers value, valid, safe => by
      rw [Node.isValid] at valid
      rw [Node.isSafe, Bool.and_eq_true] at safe
      exact sound_chainFragment (mem_constructors _)
        (sound_scalarFragment valid safe.2).1 safe.1
  | .enumeration modifiers none, valid, _ => by
      rw [Node.isValid] at valid
      cases valid
  | .enumeration modifiers (some choices), valid, safe => by
      rw [Node.isValid] at valid
      rw [Node.isSafe, Bool.and_eq_true] at safe
      exact sound_chainFragment (mem_constructors _)
        (sound_bracketed (sound_choices valid safe.2)) safe.1
  | .array modifiers none, _, safe =>
      sound_chainFragment (mem_constructors _)
        (sound_chainFragment (mem_constructors .any) sound_nothing rfl) safe
  | .array modifiers (some items), valid, safe => by
      rw [Node.isValid] at valid
      rw [Node.isSafe, Bool.and_eq_true] at safe
      exact sound_chainFragment (mem_constructors _)
        (sound_nodeFragment items valid safe.2) safe.1
  | .object modifiers properties, valid, safe => by
      rw [Node.isValid, Bool.and_eq_true] at valid
      rw [Node.isSafe, Bool.and_eq_true] at safe
      exact sound_chainFragment (mem_constructors _)
        (sound_bracketed (sound_properties properties valid.2 safe.2)) safe.1
  | .union modifiers none, valid, _ => by
      rw [Node.isValid] at valid
      cases valid
  | .union modifiers (some []), _, safe => by
      rw [Node.isSafe, Bool.and_eq_true] at safe
      exact sound_chainFragment (mem_constructors _) sound_nothing safe.1
  | .union modifiers (some (member :: rest)), valid, safe => by
      rw [Node.isValid] at valid
      rw [Node.isSafe, Bool.and_eq_true] at safe
      exact sound_chainFragment (mem_constructors _)
        (sound_bracketed (sound_members (member :: rest) valid safe.2)) safe.1

theorem sound_properties : (properties : List (String × Node)) →
    areValidProperties properties = true →
    areSafeProperties properties = true →
    ∀ entry ∈ propertyFragments properties, entry.Sound ∧ entry.Leads
  | [], _, _ => by simp [propertyFragments]
  | (name, node) :: rest, valid, safe => by
      rw [areValidProperties, Bool.and_eq_true] at valid
      rw [areSafeProperties, Bool.and_eq_true, Bool.and_eq_true] at safe
      rw [propertyFragments]
      refine List.forall_mem_cons.mpr ⟨?_, sound_properties rest valid.2 safe.2⟩
      exact sound_property safe.1.1 (sound_nodeFragment node valid.1 safe.1.2)
        (leads_chainFragment _ _ _)

theorem sound_members : (members : List Node) → areValidMembers members = true →
    areSafeMembers members = true →
    ∀ entry ∈ memberFragments members, entry.Sound ∧ entry.Leads
  | [], _, _ => by simp [memberFragments]
  | node :: rest, valid, safe => by
      rw [areValidMembers, Bool.and_eq_true] at valid
      rw [areSafeMembers, Bool.and_eq_true] at safe
      rw [memberFragments]
      refine List.forall_mem_cons.mpr ⟨?_, sound_members rest valid.2 safe.2⟩
      exact ⟨sound_nodeFragment node valid.1 safe.1, leads_chainFragment _ _ _⟩

end

end Source

end TwinSchema
