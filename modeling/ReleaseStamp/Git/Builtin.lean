import ReleaseStamp.Git.Adding
import ReleaseStamp.Git.IndexFile

/-!
The git library that comes with the program.
-/
namespace ReleaseStamp.Git

namespace Builtin

/-- The value of a variable in the configuration of a git directory. -/
def setting? (t : FileTree) (directory : Location) (name : String) : Option (Option String) := do
  let settings ← (settingsOf t directory).toOption
  let setting ← ConfigFile.last? settings name
  some (setting.value.map String.ofList)

/-- The content filters for the names below a work tree. -/
def filters? (t : FileTree) (cwd : Location) (r : Repository) (names : List String) : Option (List Filter) := do
  let tree ← (t.canonical cwd (← r.workTree)).toOption
  (filtersFor t r.directory tree names).toOption

end Builtin

instance builtin : Library where
  discover := Repository.discover
  readIndex := Index.read
  addPath := Repository.addPath
  writeIndex := Index.write
  setting? := Builtin.setting?
  filters t cwd r names := (Builtin.filters? t cwd r names).getD []
  foldsCase t r given := (foldsCase t r.directory given).toOption.getD false

end ReleaseStamp.Git
