import ReleaseStamp.Git.Staging
import ReleaseStamp.Hook.Installer
import ReleaseStamp.Settings

/-!
The four commands: stamping the lockfile, showing the version in it, and
installing or uninstalling the pre-commit script of the repository around the
working directory. A command that fails reports nothing but its error.
-/
namespace ReleaseStamp.Command

/-- Where a command runs. -/
structure Environment where
  directory : Location
  /-- The index file that replaces the one of the repository. -/
  indexFile : Option Path := none
deriving DecidableEq, Repr

/-- What a command tells when it is done. -/
inductive Report where
  | line (text : String)
  | warning (text : String)
  | note (text : String)
deriving DecidableEq, Repr

inductive CommandError where
  | config (e : ConfigError)
  | patch (e : PatchError)
  | stage (e : Git.StageError)
  /-- The lockfile to be shown does not list the package. -/
  | notListed (package : String) (lockfile : Path)
  /-- The hook, its directory or the working directory cannot be used. -/
  | file (cause : FileError)

namespace CommandError

def message : CommandError → String
  | .config e => e.message
  | .patch e => e.message
  | .stage e => e.message
  | .notListed package lockfile => "package `" ++ package ++ "` not found in " ++ lockfile.text
  | .file cause => cause.message

def causes : CommandError → List String
  | .config e => e.causes
  | .patch e => e.causes
  | .stage e => e.causes
  | .notListed _ _ | .file _ => []

end CommandError

/-- An activity of a command. -/
abbrev CommandM (α : Type) := FileM CommandError α

/-- The settings of a command that works on a lockfile. -/
def settings (env : Environment) (o : Overrides) : CommandM Settings :=
  FileM.ask fun t => (Settings.resolve env.directory o t).mapError .config

/-- What is told of a change: only that the package was not there. -/
def reportOf (s : Settings) : Change → List Report
  | .notFound =>
    [.warning ("package `" ++ s.package ++ "` not found in " ++ s.lockfile.text ++ "; wrote it unchanged to " ++
      s.patcher.outputPath.text)]
  | .updated _ | .unchanged => []

/-- Stamps the tag into the lockfile, and stages what it wrote if the settings
    say so. -/
def patch [Git.Library] (env : Environment) (o : Overrides) (tag : String) : CommandM (List Report) := do
  let s ← settings env o
  let change ← (s.patcher.run env.directory tag).mapError .patch
  if s.stage then (Git.stage env.directory env.indexFile s.patcher.outputPath).mapError .stage
  pure (reportOf s change)

def versionIn (s : Settings) (text : String) : Except CommandError (List Report) :=
  match Lockfile.version? text s.package with
  | .error cause => .error (.patch (.unsearchable cause))
  | .ok none => .error (.notListed s.package s.lockfile)
  | .ok (some version) => .ok [.line (s.package ++ " " ++ version)]

def showVersion (env : Environment) (o : Overrides) : CommandM (List Report) := do
  let s ← settings env o
  let text ← (FileM.readText env.directory s.lockfile).mapError fun cause => .patch (.unreadable s.lockfile cause)
  FileM.ask fun _ => versionIn s text

/-! ## The hook of the repository -/

def hooks [Git.Library] (env : Environment) (t : FileTree) : Except CommandError Path :=
  if t.get? env.directory = some .directory then
    match Git.Library.discover t env.directory with
    | .ok r => .ok r.hooks
    | .error fault => .error (.stage (.noRepository env.directory.path fault))
  else .error (.file .notFound)

def installReport (script : Path) : Hook.Installed → Report
  | .created => .line ("installed " ++ script.text)
  | .appended => .line ("appended lockstamp to " ++ script.text)
  | .replaced => .line ("reinstalled lockstamp in " ++ script.text)
  | .already => .warning ("already installed in " ++ script.text ++ " (use --force to rewrite)")

def uninstallReport (script : Path) : Hook.Uninstalled → Report
  | .deleted => .line ("removed " ++ script.text)
  | .stripped => .line ("removed lockstamp from " ++ script.text)
  | .notInstalled => .note ("not installed in " ++ script.text)

/-- Installs the block in the script of the repository. -/
def install [Git.Library] (env : Environment) (force : Bool) : CommandM (List Report) := do
  let hooks ← FileM.ask (hooks env)
  let outcome ← (Hook.installAt env.directory hooks force).mapError .file
  pure [installReport (Hook.scriptPath hooks) outcome]

/-- Removes the block from the script of the repository. -/
def uninstall [Git.Library] (env : Environment) : CommandM (List Report) := do
  let hooks ← FileM.ask (hooks env)
  let outcome ← (Hook.uninstallAt env.directory hooks).mapError .file
  pure [uninstallReport (Hook.scriptPath hooks) outcome]

end ReleaseStamp.Command
