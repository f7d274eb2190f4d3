import ReleaseStamp.Git.Filters

/-!
Adding a file to an index: its bytes are read from the work tree and go through
the content filters. A name that leads into a git directory is refused, and so
is whatever is no file.
-/
namespace ReleaseStamp.Git

/-- The branch that a repository is on, if its head names one. -/
def branchOf (t : FileTree) (r : Repository) : String :=
  match t.readText r.directory ⟨"HEAD"⟩ with
  | .ok text => String.ofList (ConfigFile.trimEnd (text.toList.drop "ref: ".length))
  | .error _ => Repository.firstBranch

/-- What is wrong with a directory as an entry: it may be a repository itself,
    and then has no commit yet. -/
def directoryFault (t : FileTree) (loc : Location) : Fault :=
  if t.has loc dotGit then
    match Repository.openAt t loc with
    | .error fault => fault
    | .ok inner => .unborn (branchOf t inner)
  else .directory loc.path

/-- Names are taken for equal if they differ in case only. A setting says so, which
    holds for the index of the repository but for no other. -/
def foldsCase (t : FileTree) (directory : Location) (given : Option Path) : Except Fault Bool :=
  match given with
  | some _ => .ok false
  | none => do isSet (← settingsOf t directory) "core.ignorecase"

/-- The path that an entry goes by. -/
def entryPath (t : FileTree) (directory : Location) (given : Option Path) (index : Index) (names : List String) :
    Except Fault String := do
  let path := "/".intercalate names
  .ok (if ← foldsCase t directory given then index.respell path else path)

/-- The entry for what lies under the names below a work tree. -/
def entryOf (t : FileTree) (directory tree : Location) (given : Option Path) (index : Index) (names : List String) :
    Except Fault StagedEntry :=
  if names = [] then .error .emptyPath
  else if names.any fun name => Index.isReserved name.toList then .error (.invalidPath ("/".intercalate names))
  else match t.get? (tree ++ names) with
    | some (.file mode content) => do
      let filters ← filtersFor t directory tree names
      let path ← entryPath t directory given index names
      .ok ⟨path, isExecutable mode, .bytes (filtered filters index content.raw)⟩
    | _ => .error (directoryFault t (tree ++ names))

/-- The entries with the file under the names below the work tree of a repository. -/
def Repository.addPath (t : FileTree) (cwd : Location) (r : Repository) (given : Option Path) (index : Index)
    (names : List String) : Except Fault Index :=
  match r.workTree with
  | none => .error .bare
  | some workTree => do
    let tree ← resolve t cwd workTree
    let entry ← entryOf t r.directory tree given index names
    .ok (index.add entry)

end ReleaseStamp.Git
