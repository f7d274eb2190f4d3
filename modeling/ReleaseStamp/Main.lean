import ReleaseStamp.CommandLine.Run
import ReleaseStamp.Git.IndexFormat

/-!
The program. It loads the files that a run may look at into a file tree, runs on
the tree, and writes back what the run changed. The mode of a file cannot be
asked for, so that every file that is loaded counts as one that nobody may run.
-/
namespace ReleaseStamp.CommandLine

open Git (Repository)

/-! ## Loading -/

/-- What lies at an absolute path. A link that leads nowhere is left out. -/
def loadNode (path : Path) : IO (Option Node) := do
  try
    let place := (← IO.currentDir) / path.text
    match (← place.symlinkMetadata).type with
    | .dir => return some .directory
    | .symlink => return some (.link ⟨(← IO.FS.realPath place).toString⟩)
    | .file => return some (.file FileTree.newFileMode (Git.IndexFormat.content (← IO.FS.readBinFile place)))
    | .other => return none
  catch _ => return none

/-- The location that an absolute path spells. -/
def spelled (path : Path) : Location :=
  path.steps.foldl (fun loc step =>
    match step with
    | .down name => loc ++ [name]
    | .up => loc.dropLast
    | .stay | .slash => loc) []

/-- Loads a location and all directories on the way to it. -/
def loadLocation (t : FileTree) (loc : Location) : IO FileTree :=
  (List.range (loc.length + 1)).foldlM (fun t count => do
    let place : Location := loc.take count
    if (t.get? place).isSome then return t
    match ← loadNode (Location.path place) with
    | some node => return t.put place node
    | none => return t) t

/-- Loads a path as it is spelled and where it really leads. -/
def loadPath (cwd : Location) (t : FileTree) (path : Path) : IO FileTree := do
  let spelling := cwd.path.join path
  let t ← loadLocation t (spelled spelling)
  try
    let parent := spelling.parent?.getD spelling
    let place := (← IO.currentDir) / spelling.text
    let real ← try IO.FS.realPath place catch _ => IO.FS.realPath ((← IO.currentDir) / parent.text)
    let name := ((spelled spelling).getLast?).toList
    let t ← loadLocation t (spelled ⟨real.toString⟩)
    loadLocation t (spelled ⟨real.toString⟩ ++ name)
  catch _ => return t

/-- Loads what a file in a directory names, as seen from a path. -/
def loadNamed (dir : Location) (file base : Path) (named? : Content → Option Path) (t : FileTree) : IO FileTree :=
  match t.find dir file with
  | .ok (_, .file _ content) =>
    match named? content with
    | some path => loadPath dir t (base.join path)
    | none => return t
  | _ => return t

/-! ### Repositories -/

/-- Loads a config file and those that it includes, one in another so many times. -/
def loadConfig (dir : Location) : Nat → FileTree → Path → IO FileTree
  | 0, t, _ => return t
  | depth + 1, t, file => do
    let t ← loadPath dir t file
    match t.find dir file with
    | .ok (_, .file _ content) =>
      let settings := ((Git.ConfigFile.parse file (Git.textOf content)).toOption).getD []
      (settings.filterMap Git.Setting.include?).foldlM (fun t target =>
        loadConfig dir depth t ((file.parent?.getD ⟨""⟩).join target)) t
    | _ => return t

/-- The names in a git directory that a run looks at. -/
def gitNames : List Path :=
  [⟨"HEAD"⟩, ⟨"objects"⟩, ⟨"refs"⟩, ⟨"commondir"⟩, ⟨"gitdir"⟩, ⟨"hooks"⟩, ⟨"hooks/pre-commit"⟩]

/-- Loads what lies in a directory if it is a git directory, and what it shares. -/
def loadGitDirectory (t : FileTree) (dir : Location) : IO FileTree := do
  let t ← gitNames.foldlM (loadPath dir) t
  let t ← loadNamed dir ⟨"commondir"⟩ dir.directoryPath (some <| Git.pathIn ·) t
  let common := ((Git.commonDirectory t dir).toOption).getD dir
  let t ← [⟨"objects"⟩, ⟨"refs"⟩].foldlM (loadPath common) t
  loadConfig dir Git.includeLimit (← loadConfig common Git.includeLimit t ⟨"config"⟩) ⟨"config.worktree"⟩

/-- Loads what a directory tells of a repository. -/
def loadTrace (t : FileTree) (dir : Location) : IO FileTree := do
  let link (content : Content) := content.text?.bind fun text => Git.linkTarget? text.toList
  let t ← loadNamed dir Git.dotGit dir.path link (← loadPath dir t Git.dotGit)
  let linked := match t.find dir Git.dotGit with
    | .ok (_, .file _ content) => (link content).bind fun path => (t.canonical dir (dir.path.join path)).toOption
    | .ok (loc, _) => some loc
    | .error _ => none
  (dir :: linked.toList).foldlM loadGitDirectory t

/-- Loads the work tree of the repository around a location. -/
def loadWorkTree (t : FileTree) (loc : Location) : IO FileTree :=
  match Git.search t loc with
  | .error _ => return t
  | .ok directory => do
    let moved := ((Git.Builtin.setting? t directory "core.worktree").join).map Path.mk
    let t ← moved.toList.foldlM (fun t path => loadPath directory t (directory.directoryPath.join path)) t
    let workTree := ((Repository.discover t loc).toOption).bind (·.workTree)
    workTree.toList.foldlM (loadPath loc) t

/-- Loads what tells of the repository around a location. -/
def loadRepository (t : FileTree) (loc : Location) : IO FileTree := do
  loadWorkTree (← ((List.range (loc.length + 1)).map fun count => loc.take count).foldlM loadTrace t) loc

/-- Loads what staging a file at a location looks at besides. -/
def loadStaging (cwd : Location) (given : Option Path) (loc : Location) (t : FileTree) : IO FileTree :=
  match Repository.discover t loc.dropLast with
  | .error _ => return t
  | .ok r => do
    let file := Git.indexFileOf r given
    let t ← [file, ⟨file.text ++ ".lock"⟩].foldlM (loadPath cwd) t
    let t ← match t.canonical cwd file with
      | .ok place => loadPath cwd t ⟨place.path.text ++ ".lock"⟩
      | .error _ => pure t
    let tree := (r.workTree.bind fun path => (t.canonical cwd path).toOption).getD []
    let common := ((Git.commonDirectory t r.directory).toOption).getD r.directory
    (Git.attributeFiles common tree (loc.drop tree.length)).foldlM (fun t (dir, file, _) => loadPath dir t file) t

/-! ### Requests -/

/-- The options that a request has for its settings. -/
def overridesOf : Request → Option Overrides
  | .patch o _ => some o
  | .showVersion o => some o
  | .install _ | .uninstall => none

/-- Where a path leads, or would lead if something was there. -/
def placeOf (t : FileTree) (cwd : Location) (path : Path) : Location :=
  ((t.lookup true cwd path).toOption.map fun spot =>
    match spot with
    | .found loc _ | .vacant loc => loc).getD cwd

/-- Loads what the request may look at, and tells which file it may stage. -/
def load (env : Command.Environment) (request : Request) : IO (FileTree × Location) := do
  let cwd := env.directory
  let t ← loadRepository (← loadLocation FileTree.empty cwd) cwd
  match overridesOf request with
  | none => return (t, cwd)
  | some o =>
    let t ← loadPath cwd t (o.config.getD Settings.defaultConfig)
    match Settings.resolve cwd o t with
    | .error _ => return (t, cwd)
    | .ok s =>
      let t ← loadPath cwd (← loadPath cwd t s.lockfile) s.patcher.outputPath
      let loc := placeOf t cwd s.patcher.outputPath
      return (← loadStaging cwd env.indexFile loc (← loadRepository t loc.dropLast), loc)

/-! ## Writing back -/

/-- The rights of a file with a mode. -/
def rightsOf (mode : Nat) : IO.FileRight :=
  let right (n : Nat) : IO.AccessRight := ⟨n / 4 % 2 == 1, n / 2 % 2 == 1, n % 2 == 1⟩
  ⟨right (mode / 64), right (mode / 8), right mode⟩

/-- The directory of objects of the repository around a file. -/
def objectsOf (t : FileTree) (loc : Location) : Option Location := do
  let r ← (Repository.discover t loc.dropLast).toOption
  let common ← (Git.commonDirectory t r.directory).toOption
  return common ++ ["objects"]

/-- Writes the object of staged bytes, unless it is there. -/
def storeObject (objects : Location) (data : List UInt8) : IO Unit := do
  let place := objects ++ Git.ObjectFile.path (Git.ObjectFile.name data)
  unless ← ((← IO.currentDir) / place.path.text).pathExists do
    IO.FS.createDirAll (Location.path place.dropLast).text
    IO.FS.writeBinFile place.path.text ⟨(Git.ObjectFile.compress (Git.ObjectFile.object data)).toArray⟩

/-- Writes a node that the run changed. The objects of an index come before it. -/
def storeNode (objects : Option Location) (loc : Location) : Option Node → IO Unit
  | some (.file mode (.bytes data)) => do
    IO.FS.writeBinFile loc.path.text data
    if mode ≠ FileTree.newFileMode then IO.setAccessRights loc.path.text (rightsOf mode)
  | some (.file _ (.index entries)) => do
    for entry in entries do
      if let .bytes data := entry.object then
        objects.forM (storeObject · data.data.toList)
    IO.FS.writeBinFile (loc.path.text ++ ".lock") (Git.IndexFormat.ofIndex entries)
    IO.FS.rename (loc.path.text ++ ".lock") loc.path.text
  | some .directory => IO.FS.createDir loc.path.text
  | some (.link _) => return
  | none => IO.FS.removeFile loc.path.text

/-- Writes what differs between the trees. -/
def store (objects : Option Location) (before after : FileTree) : IO Unit :=
  (before.locations ++ after.locations).eraseDups.reverse.forM fun loc => do
    unless before.get? loc = after.get? loc do storeNode objects loc (after.get? loc)

/-- Runs the program with the words after its name, and answers with its exit
    code. -/
def runProgram (arguments : List String) : IO UInt32 := do
  let names := ["GIT_INDEX_FILE", "LOCKSTAMP_TAG", "CLICOLOR_FORCE"]
  let values ← names.mapM fun name => do return (name, ← IO.getEnv name)
  let cwd := spelled ⟨(← IO.currentDir).toString⟩
  let s := Surroundings.ofVariables cwd fun name => (values.lookup name).join
  let (before, loc) ← match parse s.tag arguments with
    | .ok request => load s.toEnvironment request
    | .error _ => pure (FileTree.empty, cwd)
  let (ending, after) := run s arguments before
  store (objectsOf before loc) before after
  IO.print ending.out
  IO.eprint ending.err
  return UInt32.ofNat ending.exit

end ReleaseStamp.CommandLine

def main (arguments : List String) : IO UInt32 := ReleaseStamp.CommandLine.runProgram arguments
