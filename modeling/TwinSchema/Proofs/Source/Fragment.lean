import TwinSchema.Proofs.Relaxed.Writing
import TwinSchema.Source.Writer

/-!
# Fragments of source text

Written source text as a tree: code, quoted texts, arguments between round
brackets and entries between square or curly ones. How entries are set apart is
left to a style, so the same fragment gives the text on one line and the text
that is laid out over several lines.
-/

namespace TwinSchema.Source

open Text (isBlank lineBreak)
open Json (writeScalar writeText)

/-- The characters between entries. -/
def isGapChar (char : Char) : Bool := char == ' ' || char == '\n'

theorem isGapChar_iff {char : Char} : isGapChar char = true ↔ char = ' ' ∨ char = '\n' := by
  simp [isGapChar]

/-- How entries are set apart between brackets at a level: what stands before
the first entry, after each comma, and before the closing bracket. -/
structure Style where
  first : Nat → List Char
  next : Nat → List Char
  last : Nat → List Char
  gapFirst : ∀ level, ∀ char ∈ first level, isGapChar char = true
  gapNext : ∀ level, ∀ char ∈ next level, isGapChar char = true
  gapLast : ∀ level, ∀ char ∈ last level, isGapChar char = true

theorem isGapChar_of_mem_lineBreak {step : Int} {level : Nat} :
    ∀ char ∈ lineBreak step level, isGapChar char = true :=
  Text.forall_mem_lineBreak rfl rfl

namespace Style

/-- Everything on one line, with a blank after each comma. -/
def flat : Style where
  first _ := []
  next _ := [' ']
  last _ := []
  gapFirst := by simp
  gapNext := by simp [isGapChar]
  gapLast := by simp

/-- One entry to a line, with a number of blanks per level. -/
def laid (step : Int) : Style where
  first level := lineBreak step (level + 1)
  next level := lineBreak step (level + 1)
  last level := lineBreak step level
  gapFirst _ := isGapChar_of_mem_lineBreak
  gapNext _ := isGapChar_of_mem_lineBreak
  gapLast _ := isGapChar_of_mem_lineBreak

/-- Entries with commas and gaps, as they stand between brackets. -/
def inside (style : Style) (level : Nat) : List (List Char) → List Char
  | [] => []
  | text :: texts =>
      Relaxed.spaced (style.first level) (style.next level) (text :: texts) ++
        style.last level

end Style

theorem inside_flat_cons (level : Nat) (text : List Char)
    (texts : List (List Char)) :
    Style.flat.inside level (text :: texts) =
      text ++ texts.flatMap fun other => ',' :: ' ' :: other := by
  simp [Style.inside, Style.flat, Relaxed.spaced]

theorem inside_laid_cons (step : Int) (level : Nat) (text : List Char)
    (texts : List (List Char)) :
    (Style.laid step).inside level (text :: texts) =
      lineBreak step (level + 1) ++ text ++
        (texts.flatMap fun other => ',' :: lineBreak step (level + 1) ++ other) ++
        lineBreak step level := by
  simp [Style.inside, Style.laid, Relaxed.spaced]

/-- The pairs of brackets around entries. -/
inductive Pair where
  | square
  | curly

namespace Pair

def opening : Pair → Char
  | .square => '['
  | .curly => '{'

def closing : Pair → Char
  | .square => ']'
  | .curly => '}'

end Pair

/-- A part of written source text. -/
inductive Fragment where
  | plain (code : List Char)
  | quoted (text : String)
  | join (first second : Fragment)
  | labelled (label content : Fragment)
  | called (arguments : Fragment)
  | bracketed (pair : Pair) (entries : List Fragment)

mutual

def Fragment.text (style : Style) (level : Nat) : Fragment → List Char
  | .plain code => code
  | .quoted text => writeText text
  | .join first second => first.text style level ++ second.text style level
  | .labelled label content =>
      label.text style level ++ ':' :: ' ' :: content.text style level
  | .called arguments => '(' :: arguments.text style level ++ [')']
  | .bracketed pair entries =>
      pair.opening :: style.inside level (entryTexts style (level + 1) entries) ++
        [pair.closing]

/-- The characters of each of several entries. -/
def entryTexts (style : Style) (level : Nat) : List Fragment → List (List Char)
  | [] => []
  | entry :: rest => entry.text style level :: entryTexts style level rest

end

theorem entryTexts_eq_map (style : Style) (level : Nat)
    (entries : List Fragment) :
    entryTexts style level entries = entries.map (Fragment.text style level) := by
  induction entries with
  | nil => rfl
  | cons entry entries ih => rw [entryTexts, ih, List.map_cons]

def linkFragment (name : String) (argument : Fragment) : Fragment :=
  .join (.plain ('.' :: name.toList)) (.called argument)

/-- The links for the modifiers of a node. -/
def modifiersFragment (modifiers : Modifiers) : Fragment :=
  .join
    (if modifiers.nullable then linkFragment "nullable" (.plain []) else .plain [])
    (.join
      (if modifiers.optional then linkFragment "optional" (.plain [])
        else .plain [])
      (match modifiers.description with
        | some description => linkFragment "description" (.quoted description)
        | none => .plain []))

/-- A constructor call with the links for modifiers. -/
def chainFragment (constructor : String) (argument : Fragment)
    (modifiers : Modifiers) : Fragment :=
  .join (.plain ('z' :: '.' :: constructor.toList))
    (.join (.called argument) (modifiersFragment modifiers))

/-- A value without parts. -/
def scalarFragment : Json.Scalar → Fragment
  | .text value => .quoted value
  | value => .plain (writeScalar value)

def keyFragment (name : String) : Fragment :=
  if Text.isIdentifier name then .plain name.toList else .quoted name

/-- The constructor by which a node is written. -/
def constructorOf : Node → String
  | .leaf _ kind => if kind.isPrimitive then kind.name else "any"
  | .literal _ _ => "literal"
  | .enumeration _ _ => "enum"
  | .array _ _ => "array"
  | .object _ _ => "object"
  | .union _ (some (_ :: _)) => "union"
  | .union _ _ => "any"

def constructors : List String :=
  ["string", "number", "boolean", "null", "undefined", "bigint", "date", "any",
    "literal", "enum", "array", "object", "union"]

theorem mem_constructors (node : Node) : constructorOf node ∈ constructors := by
  cases node with
  | leaf modifiers kind =>
      cases kind <;>
        simp [constructorOf, LeafKind.isPrimitive, LeafKind.name, constructors]
  | union modifiers members =>
      cases members with
      | none => simp [constructorOf, constructors]
      | some members => cases members <;> simp [constructorOf, constructors]
  | _ => simp [constructorOf, constructors]

mutual

/-- What stands between the round brackets of a node's constructor. -/
def argumentFragment : Node → Fragment
  | .leaf _ _ => .plain []
  | .literal _ value => scalarFragment value
  | .enumeration _ choices =>
      .bracketed .square
        ((choices.getD []).map fun choice => scalarFragment choice.toScalar)
  | .array _ none => chainFragment "any" (.plain []) {}
  | .array _ (some items) =>
      chainFragment (constructorOf items) (argumentFragment items) items.modifiers
  | .object _ properties => .bracketed .curly (propertyFragments properties)
  | .union _ (some (member :: rest)) =>
      .bracketed .square
        (chainFragment (constructorOf member) (argumentFragment member)
          member.modifiers :: memberFragments rest)
  | .union _ _ => .plain []

/-- Properties with their keys. -/
def propertyFragments : List (String × Node) → List Fragment
  | [] => []
  | (name, node) :: rest =>
      .labelled (keyFragment name)
        (chainFragment (constructorOf node) (argumentFragment node) node.modifiers) ::
        propertyFragments rest

def memberFragments : List Node → List Fragment
  | [] => []
  | node :: rest =>
      chainFragment (constructorOf node) (argumentFragment node) node.modifiers ::
        memberFragments rest

end

/-- A node as a chain of calls. -/
abbrev nodeFragment (node : Node) : Fragment :=
  chainFragment (constructorOf node) (argumentFragment node) node.modifiers

section Flat

variable (style : Style) (level : Nat)

theorem text_linkFragment (name : String) (argument : Fragment) :
    (linkFragment name argument).text style level =
      link name (argument.text style level) := by
  simp [linkFragment, Fragment.text, link]

theorem text_modifiersFragment (modifiers : Modifiers) :
    (modifiersFragment modifiers).text style level = modifierLinks modifiers := by
  obtain ⟨description, nullable, optional⟩ := modifiers
  cases description <;> cases nullable <;> cases optional <;>
    simp [modifiersFragment, modifierLinks, Fragment.text, text_linkFragment]

theorem text_chainFragment (constructor : String) (argument : Fragment)
    (modifiers : Modifiers) :
    (chainFragment constructor argument modifiers).text style level =
      call constructor (argument.text style level) ++ modifierLinks modifiers := by
  simp [chainFragment, Fragment.text, call, text_modifiersFragment]

theorem text_scalarFragment (value : Json.Scalar) :
    (scalarFragment value).text style level = writeScalar value := by
  cases value <;> rfl

theorem text_keyFragment (name : String) :
    (keyFragment name).text style level = writeKey name := by
  rw [keyFragment, writeKey]
  split <;> rfl

end Flat

theorem inside_flat (level : Nat) (texts : List (List Char)) :
    Style.flat.inside level texts = entries texts := by
  cases texts with
  | nil => rfl
  | cons text texts =>
      rw [inside_flat_cons, entries, Relaxed.intercalate_cons]
      rfl

theorem text_bracketed_flat (pair : Pair) (level : Nat)
    (fragments : List Fragment) :
    (Fragment.bracketed pair fragments).text .flat level =
      pair.opening :: entries (entryTexts .flat (level + 1) fragments) ++
        [pair.closing] := by
  rw [Fragment.text, inside_flat]

mutual

/-- On one line a fragment gives what is written for the node. -/
theorem text_flat_fragment : (node : Node) → (level : Nat) →
    (nodeFragment node).text .flat level = writeFlat node
  | .leaf modifiers kind, level => by
      rw [text_chainFragment, argumentFragment, writeFlat, constructorOf]
      cases kind.isPrimitive <;> rfl
  | .literal modifiers value, level => by
      rw [text_chainFragment, argumentFragment, writeFlat, text_scalarFragment]
      rfl
  | .enumeration modifiers choices, level => by
      rw [text_chainFragment, argumentFragment, writeFlat, text_bracketed_flat,
        entryTexts_eq_map, List.map_map, callList]
      simp only [Function.comp_def, text_scalarFragment]
      rfl
  | .array modifiers none, level => by
      rw [text_chainFragment, argumentFragment, writeFlat, text_chainFragment]
      rfl
  | .array modifiers (some items), level => by
      rw [text_chainFragment, argumentFragment, writeFlat,
        text_flat_fragment items]
      rfl
  | .object modifiers properties, level => by
      rw [text_chainFragment, argumentFragment, writeFlat, text_bracketed_flat,
        texts_flat_properties properties]
      rfl
  | .union modifiers (some (member :: rest)), level => by
      rw [text_chainFragment, argumentFragment, writeFlat, text_bracketed_flat,
        entryTexts, text_flat_fragment member, texts_flat_members rest]
      rfl
  | .union modifiers (some []), level => by
      rw [text_chainFragment, argumentFragment, writeFlat]
      · rfl
      all_goals simp
  | .union modifiers none, level => by
      rw [text_chainFragment, argumentFragment, writeFlat]
      · rfl
      all_goals simp

/-- On one line the fragments of properties give what is written for them. -/
theorem texts_flat_properties : (properties : List (String × Node)) →
    (level : Nat) →
    entryTexts .flat level (propertyFragments properties) =
      writeProperties properties
  | [], _ => rfl
  | (name, node) :: rest, level => by
      rw [propertyFragments, entryTexts, writeProperties, Fragment.text,
        text_keyFragment, text_flat_fragment node, texts_flat_properties rest]

/-- On one line the fragments of members give what is written for them. -/
theorem texts_flat_members : (members : List Node) → (level : Nat) →
    entryTexts .flat level (memberFragments members) = writeMembers members
  | [], _ => rfl
  | node :: rest, level => by
      rw [memberFragments, entryTexts, writeMembers, text_flat_fragment node,
        texts_flat_members rest]

end

/-- Every node is written as a call of its constructor and the links for its modifiers. -/
theorem exists_writeFlat (node : Node) :
    ∃ argument, writeFlat node =
      call (constructorOf node) argument ++ modifierLinks node.modifiers :=
  ⟨_, by rw [← text_flat_fragment node 0, text_chainFragment]⟩

end TwinSchema.Source
