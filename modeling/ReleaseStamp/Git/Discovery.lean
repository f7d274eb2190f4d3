import ReleaseStamp.Git.Directory

/-!
The search for the git directory around a directory. It goes up from the start,
and ends early at a link file that cannot be followed. The root is asked only
if the search starts there.
-/
namespace ReleaseStamp.Git

/-- What a directory tells about the repository around it. -/
inductive Trace where
  | found (directory : Location)
  /-- The search ends here without a repository. -/
  | blocked
  | broken (fault : Fault)
  /-- Nothing here; the parent may know more. -/
  | none

/-- What a directory tells that may be a git directory itself. -/
def directoryTrace (t : FileTree) (dir : Location) : Trace :=
  match isGitDirectory t dir with
  | .ok true => .found dir
  | .ok false => .none
  | .error fault => .broken fault

/-- What a link file in a directory tells. -/
def followLink (t : FileTree) (dir : Location) (content : Content) : Trace :=
  match content.text?.bind fun text => linkTarget? text.toList with
  | none => .broken (.malformedLink (dir.path.join dotGit))
  | some target =>
    match resolve t dir (dir.path.join target) with
    | .error fault => .broken fault
    | .ok loc =>
      match directoryTrace t loc with
      | .none => .blocked
      | trace => trace

/-- What a directory tells: it may hold a git directory or a link to one, or be
    one itself. -/
def traceAt (t : FileTree) (dir : Location) : Trace :=
  match t.find dir dotGit with
  | .ok (loc, .directory) =>
    match directoryTrace t loc with
    | .none => directoryTrace t dir
    | trace => trace
  | .ok (_, .file _ content) => followLink t dir content
  | _ => directoryTrace t dir

/-- The answer of a trace, or that of the directories above. -/
def Trace.orAbove (start : Path) (above : Except Fault Location) : Trace → Except Fault Location
  | .found directory => .ok directory
  | .broken fault => .error fault
  | .blocked => .error (.noRepository start)
  | .none => above

/-- The git directory that a directory alone tells of. -/
def directoryAt (t : FileTree) (dir : Location) : Except Fault Location :=
  (traceAt t dir).orAbove dir.path (.error (.noRepository dir.path))

/-- The git directory for a directory that is given by its names, the last one
    first. -/
def searchUp (t : FileTree) (start : Path) : List String → Except Fault Location
  | [] => .error (.noRepository start)
  | name :: above => (traceAt t (name :: above).reverse).orAbove start (searchUp t start above)

/-- The git directory around a directory. -/
def search (t : FileTree) (dir : Location) : Except Fault Location :=
  if dir = [] then directoryAt t dir else searchUp t dir.path dir.reverse

end ReleaseStamp.Git
