/-!
# Options on a command line

Options begin with a hyphen, everything else is an argument. A long option gives
its value after an equals sign or as the next argument; one-letter options may
share a hyphen, and the rest of the text or the next argument is the value of
the last of them. After two hyphens alone there are no more options.
-/

namespace TwinSchema.Command

/-- An option that is understood: its long name, perhaps a letter, and whether
it takes a value. -/
structure OptionRule where
  name : String
  letter : Option Char := none
  valued : Bool := false
  deriving DecidableEq, Repr

/-- An option that is given. A switch has the empty text for its value. -/
structure Given where
  name : String
  value : String := ""
  deriving DecidableEq, Repr

/-- What a command line consists of. -/
structure Parsed where
  options : List Given := []
  arguments : List String := []
  deriving DecidableEq, Repr

namespace Parsed

/-- The value of an option. Of several ones the last counts. -/
def value? (parsed : Parsed) (name : String) : Option String :=
  (parsed.options.reverse.find? fun given => given.name == name).map Given.value

def has (parsed : Parsed) (name : String) : Bool :=
  (parsed.value? name).isSome

/-- Which of two opposite switches is given last, if either is. -/
def choice? (parsed : Parsed) (positive negative : String) : Option Bool :=
  (parsed.options.reverse.find? fun given =>
    given.name == positive || given.name == negative).map fun given =>
      given.name == positive

/-- More options in front. -/
def withOptions (options : List Given) (parsed : Parsed) : Parsed :=
  { parsed with options := options ++ parsed.options }

end Parsed

/-- The options in one argument, and the one whose value is the next argument.
-/
structure Opened where
  options : List Given := []
  pending : Option String := none
  deriving DecidableEq, Repr

/-- One-letter options that share a hyphen. -/
def readLetters (rules : List OptionRule) : List Char → Option Opened
  | [] => some {}
  | letter :: rest => do
      let rule ← rules.find? fun rule => rule.letter == some letter
      if rule.valued then
        if rest.isEmpty then return { pending := some rule.name }
        else return { options := [⟨rule.name, String.ofList rest⟩] }
      else
        let others ← readLetters rules rest
        return { others with options := ⟨rule.name, ""⟩ :: others.options }

/-- A long option. Only one that takes a value may be given one. -/
def readLong (rules : List OptionRule) (argument : List Char) : Option Opened := do
  let (name, value) := argument.span fun char => char != '='
  let rule ← rules.find? fun rule => rule.name.toList == name
  match rule.valued, value with
  | true, [] => return { pending := some rule.name }
  | true, _ :: value =>
      return { options := [⟨rule.name, String.ofList value⟩] }
  | false, [] => return { options := [⟨rule.name, ""⟩] }
  | false, _ :: _ => none

/-- The options in an argument that is an option. -/
def readOption? (rules : List OptionRule) : List Char → Option (Option Opened)
  | '-' :: '-' :: rest => some (readLong rules ('-' :: '-' :: rest))
  | '-' :: letter :: rest => some (readLetters rules (letter :: rest))
  | _ => none

/-- Takes a command line apart: nothing if an option is not understood or lacks
its value. Options after the first argument count only if they may be mixed. -/
def parse? (rules : List OptionRule) (mixed : Bool) : List String → Option Parsed
  | [] => some {}
  | argument :: rest =>
      if argument == "--" then some { arguments := rest }
      else
        match readOption? rules argument.toList with
        | none =>
            if mixed then
              (parse? rules mixed rest).map fun parsed =>
                { parsed with arguments := argument :: parsed.arguments }
            else some { arguments := argument :: rest }
        | some none => none
        | some (some opened) =>
            match opened.pending, rest with
            | none, rest =>
                (parse? rules mixed rest).map (Parsed.withOptions opened.options)
            | some _, [] => none
            | some name, value :: others =>
                (parse? rules mixed others).map
                  (Parsed.withOptions (opened.options ++ [⟨name, value⟩]))

end TwinSchema.Command
