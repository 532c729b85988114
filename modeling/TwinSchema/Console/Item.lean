import TwinSchema.Console.Markup
import TwinSchema.Json.Writer

/-!
# Console items

What is printed for people: lines, panels, tables and records.
-/

namespace TwinSchema.Console

/-- One thing printed on the console. -/
inductive Item where
  | line (text : String)
  | panel (title text : String)
  | table (title : String) (columns : List String) (rows : List (List String))
  | record (content : Json.Value)

namespace Item

def styledLine (style : String) (text : List Char) : Item :=
  .line (String.ofList (shown (styled style text)))

def text : Item → String
  | .line text => text
  | .panel title text => title ++ ": " ++ text
  | .table title columns rows =>
      "\n".intercalate (title :: (columns :: rows).map ("\t".intercalate ·))
  | .record content => String.ofList (Json.write 2 content)

end Item

end TwinSchema.Console
