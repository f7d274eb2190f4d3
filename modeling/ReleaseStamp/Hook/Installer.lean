import ReleaseStamp.Files.Access
import ReleaseStamp.Hook.Script

/-!
Installing the pre-commit script in a directory of hooks, and removing it
again. The script is read and written through links; removing it removes the
directory entry.
-/
namespace ReleaseStamp.Hook

def scriptPath (hooks : Path) : Path := hooks.join ⟨"pre-commit"⟩

def scriptMode : Nat := 0o755

/-- The text of the script, if there is a script. -/
def readScript (cwd : Location) (script : Path) : FileM FileError (Option (List Char)) :=
  FileM.ask fun t =>
    if t.has cwd script then (t.readText cwd script).map fun text => some text.toList else .ok none

def apply (cwd : Location) (script : Path) : Edit → FileM FileError Unit
  | .keep => pure ()
  | .write text => FileM.writeText cwd script (String.ofList text)
  | .delete => FileM.removeFile cwd script

/-- Installs the block in the script of the directory, which is made if it is
    missing. A script that was written can be executed afterwards. -/
def installAt (cwd : Location) (hooks : Path) (force : Bool) : FileM FileError Installed := do
  FileM.makeDirectories cwd hooks
  let current ← readScript cwd (scriptPath hooks)
  let (outcome, edit) := install force current
  apply cwd (scriptPath hooks) edit
  if edit ≠ .keep then FileM.setMode cwd (scriptPath hooks) scriptMode
  pure outcome

/-- Removes the block from the script of the directory, and a script that keeps
    nothing else. -/
def uninstallAt (cwd : Location) (hooks : Path) : FileM FileError Uninstalled := do
  let current ← readScript cwd (scriptPath hooks)
  let (outcome, edit) := uninstall current
  apply cwd (scriptPath hooks) edit
  pure outcome

end ReleaseStamp.Hook
