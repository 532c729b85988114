import TwinSchema.Command.Run

/-!
# The program

Reads the files that the command line may mean, carries it out, and prints and
writes what the report says.
-/

namespace TwinSchema.Command

/-- The names of files that an argument may contain: the argument itself, what
follows an equals sign, and what follows a letter and its hyphen. -/
def mentioned (argument : String) : List String :=
  let text := argument.toList
  let value := (text.dropWhile fun char => char != '=').drop 1
  [argument, String.ofList value, String.ofList (text.drop 2)]

/-- The content of a file, if there is one to read. -/
def readFile? (name : String) : IO (Option (Location × List Char)) := do
  try
    return some (Location.ofText name, (← IO.FS.readFile name).toList)
  catch _ =>
    return none

def folderExists (location : Location) : IO Bool := do
  try
    (← IO.FS.realPath location.text).isDir
  catch _ =>
    return false

/-- What surrounds a command: the files and folders that its arguments may
mean, the folders in which these lie, and what is typed in. -/
def surroundings (arguments : List String) : IO Surroundings := do
  let names := arguments.flatMap mentioned
  let locations := names.map Location.ofText
  let files ← names.filterMapM readFile?
  let folders ←
    (locations ++ locations.map Location.folder).filterM folderExists
  let typed ←
    if arguments.contains "-" then (← IO.getStdin).readToEnd else pure ""
  return { files, folders, typed := typed.toList }

/-- Prints and writes what a report says. -/
def Report.perform (report : Report) : IO UInt32 := do
  for item in report.console do
    IO.println item.text
  for (location, content) in report.written do
    IO.FS.createDirAll location.folder.text
    IO.FS.writeFile location.text (String.ofList content)
  IO.print (String.ofList report.output)
  match report.crash with
  | none => pure ()
  | some crash => IO.eprintln crash.text
  return report.ending.code.toUInt32

end TwinSchema.Command

/-- Carries out a command line. -/
def main (arguments : List String) : IO UInt32 := do
  let surroundings ← TwinSchema.Command.surroundings arguments
  (TwinSchema.Command.run surroundings arguments).perform
