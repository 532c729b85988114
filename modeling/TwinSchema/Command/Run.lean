import TwinSchema.Command.Location
import TwinSchema.Command.Task
import TwinSchema.Console.Item
import TwinSchema.Node.Walk
import TwinSchema.Settings.File
import TwinSchema.Source.Layout

/-!
# Running a command

A command line is carried out on known files and gives a report: what is printed
and written, and how it ends. Nothing else happens.
-/

namespace TwinSchema.Command

open Console

/-- What ends a command without an answer of its own: a conversion that breaks
down, a settings file with a scalar that is not what its tag says or with a
field that no text names, a file in a folder that is not there, and a folder in
place of a file. -/
inductive Crash where
  | breakdown (breakdown : Breakdown)
  | flawedSettings (flaw : Yaml.Flaw)
  | unnamedSetting
  | noFolder (location : Location)
  | folder (location : Location)
  deriving DecidableEq, Repr

def Crash.text : Crash → String
  | .breakdown cause => cause.text
  | .flawedSettings flaw => flaw.message
  | .unnamedSetting => "A field of the settings is not named by a text"
  | .noFolder location =>
      "No such file or directory: " ++ Text.display location.text
  | .folder location => "Is a directory: " ++ Text.display location.text

/-- How a command ends: well, with an error, or because its command line is not
understood. -/
inductive Ending where
  | success
  | failure
  | misuse
  deriving DecidableEq, Repr

/-- The number that other programs see. -/
def Ending.code : Ending → Nat
  | .success => 0
  | .failure => 1
  | .misuse => 2

/-- What a command does. The level is that of the logger afterwards. -/
structure Report where
  ending : Ending := .success
  console : List Item := []
  written : List (Location × List Char) := []
  output : List Char := []
  level : Int := 0
  crash : Option Crash := none

namespace Report

/-- The report on a command line that is not understood. -/
def misuse : Report := { ending := .misuse }

def crashed (crash : Crash) : Report :=
  { ending := .failure, crash := some crash }

end Report

def errorLine (message : String) : Item :=
  .styledLine "red" ("Error: ".toList ++ escape message.toList)

/-- A message about a file that was written. The name of the file is not kept
from having tags. -/
def fileLine (message name : String) : Item :=
  .styledLine "green" (message.toList ++ name.toList)

/-- The messages about a fault. -/
def faultItems : Fault → List Item
  | .malformed detail =>
      let place :=
        match detail.line with
        | none => []
        | some line =>
            let column := (detail.column.map toString).getD "None"
            [.line s!"  Line {line}, column {column}"]
      let excerpt := detail.excerpt.getD ""
      let around :=
        if excerpt.isEmpty then []
        else [.panel "Near" (String.ofList (shown (escape excerpt.toList)))]
      errorLine detail.reason :: (place ++ around)
  | fault => [errorLine fault.message]

/-- The report on a fault, with its record where more is to be told. -/
def reportFault (verbose : Bool) (fault : Fault) : Report :=
  { ending := .failure
    console :=
      faultItems fault ++ if verbose then [.record fault.toRecord] else [] }

/-- The report on a text that is to be written to a file, or to the output if no
file is named. -/
def reportText (surroundings : Surroundings) (output : Option String)
    (text : List Char) : Report :=
  let content := text ++ ['\n']
  let name := output.getD ""
  let location := Location.ofText name
  if name.isEmpty then { output := content }
  else if surroundings.isFolder location then .crashed (.folder location)
  else if !surroundings.isFolder location.folder then
    .crashed (.noFolder location)
  else
    { console := [fileLine "Wrote " name], written := [(location, content)] }

def reportConversion (verbose : Bool) (converted : Except Breakdown Outcome)
    (report : Converted → Report) : Report :=
  match converted with
  | .error breakdown => .crashed (.breakdown breakdown)
  | .ok outcome =>
      match outcome.result with
      | .ok converted => report converted
      | .error fault => reportFault verbose fault

/-- Converts a text in a given direction, or in the one that suits it. -/
def convertEither (settings : Settings) (direction : Option Direction)
    (text : List Char) : Except Breakdown Outcome := do
  let direction ←
    match direction with
    | some direction => pure direction
    | none => detectDirection text
  convert settings direction none text

def flagNames (modifiers : Modifiers) : String :=
  ", ".intercalate
    ((if modifiers.nullable then ["nullable"] else []) ++
      if modifiers.optional then ["optional"] else [])

/-- A schema as a table, one row for each node. -/
def schemaTable (node : Node) : Item :=
  let cell := fun (text : String) => String.ofList (shown (escape text.toList))
  .table "Schema" ["Path", "Kind", "Flags", "Description"]
    (node.walk.map fun (path, node) =>
      [cell path.text, node.kind.name, flagNames node.modifiers,
        cell (node.modifiers.description.getD "")])

/-- The explanation of the command line. -/
def explanation : List Char :=
  let tasks := Verb.all.map fun verb => "  " ++ verb.name ++ ": " ++ verb.summary
  ("\n".intercalate
    ("Usage: schema-bridge [OPTIONS] COMMAND [ARGS]..." :: "" :: tasks) ++
    "\n").toList

def versionLine : List Char := "schema-bridge, version 0.1.0\n".toList

/-- The settings and the level of detail that hold for a task. -/
structure Context where
  settings : Settings := {}
  verbose : Bool := false

/-- Carries out a task on the text that it reads, if it reads one. -/
def runTask (surroundings : Surroundings) (context : Context)
    (text : List Char) : Task → Report
  | .explain => { output := explanation }
  | .toDocument _ comments output =>
      reportConversion context.verbose
        (convert context.settings .sourceToDocument comments text)
        fun converted => reportText surroundings output converted.output
  | .toSource _ laidOut output =>
      let settings := { context.settings with
        reindentSource := laidOut.getD context.settings.reindentSource }
      reportConversion context.verbose
        (convert settings .documentToSource none text)
        fun converted => reportText surroundings output converted.output
  | .convert _ direction output =>
      reportConversion context.verbose
        (convertEither context.settings direction text)
        fun converted => reportText surroundings output converted.output
  | .reindent _ indent output =>
      let indent := indent.getD context.settings.indent
      reportText surroundings output (Source.reindent indent.val (Text.trim text))
  | .inspect _ direction =>
      reportConversion context.verbose
        (convertEither context.settings direction text)
        fun converted => { console := [schemaTable converted.node] }
  | .initSettings output =>
      let location := Location.ofText output
      if surroundings.isFolder location then .crashed (.folder location)
      else
        { console := [fileLine "Created settings: " output]
          written := [(location, (Settings.toText {}).toList)] }

/-- Carries out a task whose input must exist. -/
def runOnInput (surroundings : Surroundings) (context : Context) (task : Task) :
    Report :=
  match task.input? with
  | none => runTask surroundings context [] task
  | some name =>
      match surroundings.text? name with
      | none => .misuse
      | some text => runTask surroundings context text task

/-- The report on a settings file that gives no settings. A file that is not
well formed, or whose fields are wrong, gives rise to a message. -/
def reportRejection : Settings.Rejection → Report
  | .flawed .malformed => complaint "Invalid settings YAML"
  | .flawed flaw => .crashed (.flawedSettings flaw)
  | .notRecord => complaint Settings.notRecordMessage
  | .unnamedField => .crashed .unnamedSetting
  | .invalid _ => complaint "Invalid settings"
where
  complaint (message : String) : Report :=
    { ending := .failure, console := [errorLine message] }

/-- The settings to use: those of a file if one is named, or else the standard
ones. -/
def loadSettings (surroundings : Surroundings) (name : Option String) :
    Except Report Settings :=
  match name with
  | none => .ok {}
  | some name =>
      match surroundings.file? name with
      | none => .error (.crashed (.folder (Location.ofText name)))
      | some text => (Settings.ofText text).mapError reportRejection

/-- Carries out a task with its own options, under given settings. -/
def runVerb (surroundings : Surroundings) (context : Context) (verb : Verb)
    (arguments : List String) : Report :=
  match (parse? verb.rules true arguments).bind verb.task? with
  | none => .misuse
  | some task => runOnInput surroundings context task

/-- Carries out what the arguments after the general options ask for. -/
def runParsed (surroundings : Surroundings) (parsed : Parsed) : Report :=
  let settingsFile := parsed.value? "--config"
  if !settingsFile.all surroundings.holds then .misuse
  else
    match parsed.arguments with
    | [] => .misuse
    | name :: arguments =>
        match Verb.ofName? name, loadSettings surroundings settingsFile with
        | none, _ => .misuse
        | some _, .error report => report
        | some verb, .ok settings =>
            let verbose := parsed.has "--verbose"
            let level := if verbose then LogLevel.debug else settings.logLevel
            { runVerb surroundings ⟨settings, verbose⟩ verb arguments with
              level := level.severity }

/-- Whether an option asks for the version or an explanation, and not for a
task. -/
def asksAbout (given : Given) : Bool :=
  given.name == "--version" || given.name == helpRule.name

/-- Carries out a command line. A question about the program comes first,
wherever it stands among the general options. -/
def run (surroundings : Surroundings) (arguments : List String) : Report :=
  match parse? generalRules false arguments with
  | none => .misuse
  | some parsed =>
      match parsed.options.find? asksAbout with
      | some given =>
          if given.name == helpRule.name then { output := explanation }
          else { output := versionLine }
      | none => runParsed surroundings parsed

end TwinSchema.Command
