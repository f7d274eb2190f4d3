import ReleaseStamp.Git.Fault

/-!
Repositories: what is known of one that has been opened, the places of its
index and its scripts, and what a new one holds.
-/
namespace ReleaseStamp.Git

/-- The name of the git directory, or of the link to it, in a work tree. -/
def dotGit : Path := ⟨".git"⟩

/-- A repository: its git directory, and the path of its work tree unless it is
    bare. -/
structure Repository where
  directory : Location
  workTree : Option Path
deriving DecidableEq, Repr

namespace Repository

/-- The path of the git directory as it is shown. -/
def path (r : Repository) : Path := r.directory.directoryPath

/-- The index that the repository uses if no other is given. -/
def indexFile (r : Repository) : Path := r.path.join ⟨"index"⟩

def hooks (r : Repository) : Path := r.path.join ⟨"hooks"⟩

/-! ## Making one -/

def firstBranch : String := "refs/heads/master"

def newConfig (bare : Bool) : String :=
  "[core]\n\tbare = " ++ (if bare then "true" else "false") ++
    "\n\trepositoryformatversion = 0\n\tfilemode = true\n\tlogallrefupdates = true\n"

/-- What a new git directory holds, by name. -/
def skeleton (bare : Bool) : List (Location × Node) :=
  [([], .directory), (["HEAD"], .file 0o644 (.ofText ("ref: " ++ firstBranch ++ "\n"))),
    (["config"], .file 0o644 (.ofText (newConfig bare))), (["hooks"], .directory), (["info"], .directory),
    (["objects"], .directory), (["objects", "info"], .directory), (["objects", "pack"], .directory),
    (["refs"], .directory), (["refs", "heads"], .directory), (["refs", "tags"], .directory)]

/-- The tree with a new repository at a directory. What is there already stays. -/
def create (t : FileTree) (dir : Location) (bare : Bool) : FileTree :=
  let directory := if bare then dir else dir ++ [dotGit.text]
  ((skeleton bare).map fun (below, node) => (directory ++ below, node)).foldl
    (fun t (loc, node) => if (t.get? loc).isSome then t else t.put loc node) t

end Repository

end ReleaseStamp.Git
