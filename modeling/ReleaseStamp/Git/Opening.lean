import ReleaseStamp.Git.Discovery

/-!
Opening a repository: its settings, with those of the files that are included,
the format that they tell, and the work tree that belongs to it.
-/
namespace ReleaseStamp.Git

/-! ## Settings -/

/-- The file that a setting includes. -/
def Setting.include? (setting : Setting) : Option Path :=
  if setting.name = "include.path".toList then setting.value.map fun value => ⟨String.ofList value⟩ else none

/-- Files that may include one another in turn. -/
def includeLimit : Nat := 10

/-- The settings in a file and in those that it includes, each after the setting
    that includes it. Without the file there are none. -/
def settingsIn (t : FileTree) (dir : Location) : Nat → Path → Except Fault (List Setting)
  | 0, _ => .error .includeDepth
  | depth + 1, file =>
    match t.find dir file with
    | .ok (_, .file _ content) => do
      let settings ← ConfigFile.parse (dir.directoryPath.join file) (textOf content)
      let parts ← settings.mapM fun setting =>
        match setting.include? with
        | some target => (settingsIn t dir depth ((file.parent?.getD ⟨""⟩).join target)).map (setting :: ·)
        | none => .ok [setting]
      .ok parts.flatten
    | _ => .ok []

/-- What a repository is set to: shared settings, and after them those of one
    work tree. -/
def settingsOf (t : FileTree) (directory : Location) : Except Fault (List Setting) := do
  let common ← commonDirectory t directory
  let shared ← settingsIn t common includeLimit ⟨"config"⟩
  let own ← settingsIn t directory includeLimit ⟨"config.worktree"⟩
  .ok (shared ++ own)

/-- The truth of a setting that may be missing. -/
def isSet (settings : List Setting) (name : String) : Except Fault Bool :=
  match ConfigFile.last? settings name with
  | some setting => ConfigFile.truth setting.value
  | none => .ok false

/-! ## Formats -/

def extensionSection : List Char := "extensions.".toList

/-- The extensions of the format that are understood. -/
def extensions : List String := ["noop", "objectformat", "worktreeconfig", "preciousobjects"]

/-- The extension that a setting asks for and that is not understood. -/
def unknownExtension? (setting : Setting) : Option Fault :=
  if extensionSection.isPrefixOf setting.name ∧
      String.ofList (setting.name.drop extensionSection.length) ∉ extensions then
    some (.extension (String.ofList setting.name))
  else none

/-- What keeps a repository from being opened. -/
def formatFault? (settings : List Setting) : Option Fault :=
  match ConfigFile.last? settings "core.repositoryformatversion" with
  | none => none
  | some setting =>
    match setting.value.bind ConfigFile.number? with
    | none => some (.integer ((setting.value.map String.ofList).getD "(null)"))
    | some version =>
      if version < 0 ∨ newestFormat < version then some (.format version)
      else if version = newestFormat then settings.findSome? unknownExtension?
      else none

/-! ## Opening -/

namespace Repository

/-- The repository of a git directory. Its work tree is the one that it is linked
    to; else it lies around the git directory unless a setting moves it. -/
def ofDirectory (t : FileTree) (directory : Location) : Except Fault Repository := do
  let settings ← settingsOf t directory
  match formatFault? settings with
  | some fault => .error fault
  | none =>
    let bare ← isSet settings "core.bare"
    match linkedWorkTree? t directory with
    | some workTree => .ok ⟨directory, some workTree⟩
    | none =>
      if bare then .ok ⟨directory, none⟩
      else match (ConfigFile.last? settings "core.worktree").bind (·.value) with
        | some moved => do
          let loc ← resolve t directory (directory.directoryPath.join ⟨String.ofList moved⟩)
          .ok ⟨directory, some loc.directoryPath⟩
        | none => .ok ⟨directory, some (Location.directoryPath directory.dropLast)⟩

/-- The repository in a directory, whose parents are not asked. -/
def openAt (t : FileTree) (dir : Location) : Except Fault Repository := do
  ofDirectory t (← directoryAt t dir)

/-- The repository around a directory. The git directory that is found is opened
    as any directory is. -/
def discover (t : FileTree) (dir : Location) : Except Fault Repository := do
  openAt t (← search t dir)

end Repository

end ReleaseStamp.Git
