import TwinSchema.Fault
import TwinSchema.Fields
import TwinSchema.Settings.Basic
import TwinSchema.Yaml.Content

/-!
# Settings files

Settings are kept in a small YAML file. An empty file stands for the standard
settings.
-/

namespace TwinSchema.Settings

/-- Why a file gives no settings: it has no content, it holds no record, it has
a field whose name is no text, or its fields are wrong. -/
inductive Rejection where
  | flawed (flaw : Yaml.Flaw)
  | notRecord
  | unnamedField
  | invalid (issues : List Validation.Issue)
  deriving DecidableEq, Repr

/-- The wording for a file that holds no record. -/
def notRecordMessage : String := "Settings must be a mapping"

def notFound (path : String) : Fault :=
  .settings s!"Settings file not found: {path}"

/-- What a value of a file gives for a setting. No setting takes a collection or
a moment, so it does not matter which of them a value is. -/
def given : Yaml.Value → Given
  | .plain content => .value (.scalar content)
  | .octets octets =>
      match Text.decoded? octets with
      | some text => .value (.text text)
      | none => .noText
  | .moment => .value (.list [])
  | .collection => .value (.list [])

/-- The fields of a record, if each of them is named by a text. Of fields with
one name the last prevails. -/
def namedFields? (fields : List (Yaml.Value × Yaml.Value)) :
    Option (List (String × Given)) :=
  fields.foldlM (fun named (key, content) =>
    match key with
    | .plain (.text name) => some (setField name (given content) named)
    | _ => none) []

def ofText (text : List Char) : Except Rejection Settings :=
  match Yaml.read text with
  | .error flaw => .error (.flawed flaw)
  | .ok (.value (.plain .null)) => .ok {}
  | .ok (.value _) => .error .notRecord
  | .ok (.record fields) =>
      match namedFields? fields with
      | none => .error .unnamedField
      | some named => (ofFields named).mapError .invalid

def toText (settings : Settings) : String :=
  s!"include_comments: {settings.includeComments}\n" ++
    s!"indent: {settings.indent.val}\n" ++
    s!"reindent_source: {settings.reindentSource}\n" ++
    s!"log_level: {settings.logLevel.name}\n"

end TwinSchema.Settings
