import TwinSchema.Text.Blank

/-!
# Locations of files

A location names folders from the working folder, or from the root, down to a
file or a folder. Empty names and single dots in its text say nothing.
-/

namespace TwinSchema.Command

/-- A location. Without any name it is the working folder or the root. -/
structure Location where
  absolute : Bool := false
  names : List String := []
  deriving DecidableEq, Repr

namespace Location

def ofText (text : String) : Location :=
  { absolute := text.toList.head? == some '/'
    names := (text.splitOn "/").filter fun name => name != "" && name != "." }

def text (location : Location) : String :=
  let names := "/".intercalate location.names
  if location.absolute then "/" ++ names
  else if names.isEmpty then "." else names

def folder (location : Location) : Location :=
  { location with names := location.names.dropLast }

/-- Whether a location lies anywhere below a folder. -/
def below (location folder : Location) : Bool :=
  location.absolute == folder.absolute &&
    folder.names.isPrefixOf location.names && location != folder

end Location

/-- The files that a command can read, by location, the folders known besides
those in which the files lie, and what is typed in. -/
structure Surroundings where
  files : List (Location × List Char)
  folders : List Location := []
  typed : List Char := []

namespace Surroundings

/-- The content of a file. Every kind of line break in it becomes a line feed.
-/
def file? (surroundings : Surroundings) (name : String) : Option (List Char) :=
  if name.isEmpty then none
  else
    (surroundings.files.lookup (Location.ofText name)).map Text.unifyBreaks

/-- Whether a location is a folder. The working folder always is one. -/
def isFolder (surroundings : Surroundings) (location : Location) : Bool :=
  location == {} || surroundings.folders.contains location ||
    surroundings.files.any fun (file, _) => file.below location

/-- Whether there is a file or a folder of a given name. -/
def holds (surroundings : Surroundings) (name : String) : Bool :=
  !name.isEmpty && ((surroundings.file? name).isSome ||
    surroundings.isFolder (Location.ofText name))

/-- The text that a command is to work on: that of a file, or under the name of
a hyphen what is typed in. -/
def text? (surroundings : Surroundings) (name : String) : Option (List Char) :=
  if name == "-" then some (Text.unifyBreaks surroundings.typed)
  else surroundings.file? name

end Surroundings

end TwinSchema.Command
