import TwinSchema.Settings.Level
import TwinSchema.Validation.Reading

/-!
# Settings

What can be chosen about the output: comments, indentation, layout, and how much
is logged. The meaning of a conversion does not depend on it.
-/

namespace TwinSchema

open Validation

/-- The number of blanks per nesting level: one to eight. -/
abbrev Indent := { blanks : Int // 1 ≤ blanks ∧ blanks ≤ 8 }

theorem Indent.two_allowed : (1 : Int) ≤ 2 ∧ (2 : Int) ≤ 8 := by decide

structure Settings where
  includeComments : Bool := true
  indent : Indent := ⟨2, Indent.two_allowed⟩
  reindentSource : Bool := true
  logLevel : LogLevel := .warning
  deriving DecidableEq, Repr

namespace Settings

/-- The complaint about an unknown log level. -/
def logLevelComplaint : String :=
  "log_level must be one of " ++
    ", ".intercalate (LogLevel.all.map LogLevel.name)

/-- A log level from its name. -/
def readLevel (place : List String) (value : Json.Value) : Checked LogLevel :=
  match readText place value with
  | .error issues => .error issues
  | .ok name =>
      match LogLevel.ofName? name with
      | some level => .ok level
      | none => .error [⟨place, .refused logLevelComplaint⟩]

/-- An indentation from a whole number. -/
def readIndent (place : List String) (value : Json.Value) : Checked Indent :=
  match readInteger place value with
  | .error issues => .error issues
  | .ok blanks =>
      if low : blanks < 1 then .error [⟨place, .below 1⟩]
      else if high : 8 < blanks then .error [⟨place, .above 8⟩]
      else .ok ⟨blanks, by omega⟩

/-- What is given for a setting: a value, or octets that are no text. -/
inductive Given where
  | value (content : Json.Value)
  | noText

/-- A field that may be missing. Octets that are no text are a problem of their
own. -/
def readField {α : Type} (fields : List (String × Given)) (name : String)
    (default : α) (noText : Problem)
    (read : List String → Json.Value → Checked α) : Checked α :=
  match fields.lookup name with
  | none => .ok default
  | some (.value content) => read [name] content
  | some .noText => .error [⟨[name], noText⟩]

/-- Settings from the fields of a record. Missing fields take their defaults,
and unknown ones are ignored. -/
def ofFields (fields : List (String × Given)) : Checked Settings :=
  let standard : Settings := {}
  let comments :=
    readField fields "include_comments" standard.includeComments
      .unreadableBoolean readBool
  let indent :=
    readField fields "indent" standard.indent .unreadableInteger readIndent
  let layout :=
    readField fields "reindent_source" standard.reindentSource
      .unreadableBoolean readBool
  let level :=
    readField fields "log_level" standard.logLevel .undecodableText readLevel
  match comments, indent, layout, level with
  | .ok includeComments, .ok indent, .ok reindentSource, .ok logLevel =>
      .ok { includeComments, indent, reindentSource, logLevel }
  | comments, indent, layout, level =>
      .error (issues comments ++ issues indent ++ issues layout ++ issues level)

end Settings

end TwinSchema
