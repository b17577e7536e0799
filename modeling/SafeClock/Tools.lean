import SafeClock.Tools.Characters
import SafeClock.Tools.Edit
import SafeClock.Tools.Files
import SafeClock.Tools.Lines
import SafeClock.Tools.Select
import SafeClock.Tools.Values

/-!
# The tools of a system
-/

set_option autoImplicit false

namespace SafeClock.Tools

/-- The tools, by the names they are called by. -/
def table : List (String × Tool) :=
  [ ("[", test "["), ("basename", basename), ("cat", cat), ("chmod", chmod), ("cp", cp),
    ("cut", cut), ("dirname", dirname), ("echo", echo), ("env", printenv), ("expr", expr),
    ("false", fun c => c.answer [] 1), ("grep", grep), ("head", head), ("ls", ls),
    ("mkdir", mkdir), ("mv", mv), ("printenv", printenv), ("printf", printf),
    ("pwd", fun c => c.answer (placeName c.cwd ++ ['\n']) 0), ("rm", rm), ("rmdir", rmdir),
    ("sed", sed), ("seq", seq), ("sleep", fun c => c.answer [] 0), ("sort", sort),
    ("sync", fun c => c.answer [] 0), ("tail", tail), ("tee", tee), ("test", test "test"),
    ("touch", touch), ("tr", tr), ("true", fun c => c.answer [] 0), ("uniq", uniq), ("wc", wc) ]

/-- The tool of a name. -/
def ofName? (name : String) : Option Tool := (table.find? (·.1 == name)).map Prod.snd

/-- The name of the program at a path, if it is among those that come with the system. -/
def systemName? (path : List Char) : Option String :=
  ["/bin/", "/usr/bin/"].findSome? fun lead =>
    if lead.toList.isPrefixOf path then
      let name := path.drop lead.length
      if name.isEmpty ∨ name.contains '/' then none else some (String.ofList name)
    else none

end SafeClock.Tools
