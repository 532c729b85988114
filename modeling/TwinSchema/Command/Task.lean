import TwinSchema.Command.Options
import TwinSchema.Conversion
import TwinSchema.Number.Numeral

/-!
# Tasks

What a command line asks for. Some options come before the name of the task and
hold for every task; each task has options of its own.
-/

namespace TwinSchema.Command

inductive Verb where
  | toDocument
  | toSource
  | convert
  | reindent
  | inspect
  | initSettings
  deriving DecidableEq, Repr

namespace Verb

def name : Verb → String
  | .toDocument => "to-json"
  | .toSource => "to-zod"
  | .convert => "convert"
  | .reindent => "reindent"
  | .inspect => "inspect"
  | .initSettings => "init-config"

def all : List Verb :=
  [.toDocument, .toSource, .convert, .reindent, .inspect, .initSettings]

def ofName? (name : String) : Option Verb :=
  all.find? fun verb => verb.name == name

/-- What a task does. -/
def summary : Verb → String
  | .toDocument => "Convert source into a schema document."
  | .toSource => "Convert a schema document into source."
  | .convert => "Convert a file in either direction."
  | .reindent => "Re-indent source, one entry per line."
  | .inspect => "Show the schema read from source or a document."
  | .initSettings => "Write a settings file with the standard settings."

end Verb

/-- The option that asks for an explanation. -/
def helpRule : OptionRule := { name := "--help" }

/-- The option for the file to write. -/
def outputRule : OptionRule :=
  { name := "--output", letter := some 'o', valued := true }

def directionRule : OptionRule :=
  { name := "--direction", letter := some 'd', valued := true }

def generalRules : List OptionRule :=
  [helpRule, { name := "--version" },
    { name := "--verbose", letter := some 'v' },
    { name := "--config", letter := some 'c', valued := true }]

def Verb.rules : Verb → List OptionRule
  | .toDocument =>
      [helpRule, outputRule, { name := "--comments" }, { name := "--no-comments" }]
  | .toSource =>
      [helpRule, outputRule, { name := "--reindent" }, { name := "--no-reindent" }]
  | .convert => [helpRule, outputRule, directionRule]
  | .reindent =>
      [helpRule, outputRule,
        { name := "--indent", letter := some 'i', valued := true }]
  | .inspect => [helpRule, directionRule]
  | .initSettings => [helpRule, outputRule]

/-- What to do, with all that the command line says about it. -/
inductive Task where
  | explain
  | toDocument (input : String) (comments : Option Bool) (output : Option String)
  | toSource (input : String) (laidOut : Option Bool) (output : Option String)
  | convert (input : String) (direction : Option Direction)
      (output : Option String)
  | reindent (input : String) (indent : Option Indent) (output : Option String)
  | inspect (input : String) (direction : Option Direction)
  | initSettings (output : String)
  deriving DecidableEq, Repr

/-- The only argument of a task. -/
def single? : List String → Option String
  | [argument] => some argument
  | _ => none

/-- Reads the value of an option that may be missing. -/
def optional? {α : Type} (read : String → Option α) :
    Option String → Option (Option α)
  | none => some none
  | some value => (read value).map some

/-- An indentation from its text. -/
def indent? (text : String) : Option Indent := do
  let blanks ← (Number.readInteger 10 text.toList).toOption
  if inRange : 1 ≤ blanks ∧ blanks ≤ 8 then return ⟨blanks, inRange⟩ else none

/-- The name of the settings file that is written unless another one is given.
-/
def standardSettingsFile : String := "schema-bridge.yaml"

/-- The task that options and arguments describe. -/
def Verb.task? (verb : Verb) (parsed : Parsed) : Option Task := do
  if parsed.has helpRule.name then return .explain
  let output := parsed.value? outputRule.name
  let direction ← optional? Direction.ofName? (parsed.value? directionRule.name)
  let indent ← optional? indent? (parsed.value? "--indent")
  match verb with
  | .toDocument =>
      return .toDocument (← single? parsed.arguments)
        (parsed.choice? "--comments" "--no-comments") output
  | .toSource =>
      return .toSource (← single? parsed.arguments)
        (parsed.choice? "--reindent" "--no-reindent") output
  | .convert => return .convert (← single? parsed.arguments) direction output
  | .reindent => return .reindent (← single? parsed.arguments) indent output
  | .inspect => return .inspect (← single? parsed.arguments) direction
  | .initSettings =>
      if parsed.arguments.isEmpty then
        return .initSettings (output.getD standardSettingsFile)
      else none

/-- The file that a task reads. -/
def Task.input? : Task → Option String
  | .explain => none
  | .toDocument input _ _ => some input
  | .toSource input _ _ => some input
  | .convert input _ _ => some input
  | .reindent input _ _ => some input
  | .inspect input _ => some input
  | .initSettings _ => none

end TwinSchema.Command
