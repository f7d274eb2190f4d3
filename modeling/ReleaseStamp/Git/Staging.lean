import ReleaseStamp.Git.Library

/-!
Staging a file: it goes into an index, under its path below the work tree of the
repository around it. A failure leaves the index as it was.
-/
namespace ReleaseStamp.Git

inductive StageError where
  | missing (path : Path) (cause : FileError)
  /-- The root has no repository around it. -/
  | root
  | noRepository (dir : Path) (cause : Fault)
  | bare (directory : Path)
  | noWorkTree (workTree : Path) (cause : FileError)
  | outside (file workTree : Path)
  | ownIndex (directory : Path) (cause : Fault)
  | givenIndex (file : Path) (cause : Fault)
  | refused (path : String) (cause : Fault)
  | unwritten (file : Path) (cause : Fault)
deriving DecidableEq, Repr

namespace StageError

def message : StageError → String
  | .missing path _ => "cannot stage missing file: " ++ path.text
  | .root => "cannot stage /"
  | .noRepository dir _ => "not inside a git repository: " ++ dir.text
  | .bare directory => "repository has no work tree: " ++ directory.text
  | .noWorkTree workTree _ => "failed to resolve work tree: " ++ workTree.text
  | .outside file workTree => file.text ++ " is outside the work tree " ++ workTree.text
  | .ownIndex directory _ => "failed to open index of " ++ directory.text
  | .givenIndex file _ => "failed to open index: " ++ file.text
  | .refused path _ => "git add " ++ path
  | .unwritten file _ => "failed to write index: " ++ file.text

/-- The cause, if it lies in the files. -/
def fileCause? : StageError → Option FileError
  | .missing _ cause | .noWorkTree _ cause => some cause
  | _ => none

/-- The cause, if it lies in the repository. -/
def fault? : StageError → Option Fault
  | .noRepository _ cause | .ownIndex _ cause | .givenIndex _ cause | .refused _ cause | .unwritten _ cause =>
    some cause
  | _ => none

def causes (e : StageError) : List String :=
  match e with
  | .outside _ _ => ["prefix not found"]
  | _ => (e.fileCause?.map (·.message)).toList ++ (e.fault?.map (·.message)).toList

end StageError

/-! ## Staging -/

/-- The index in use: a given file, or that of the repository. -/
def indexFileOf (r : Repository) (given : Option Path) : Path := given.getD r.indexFile

/-- The names of a location below a directory. -/
def below? (dir loc : Location) : Option (List String) :=
  if dir.isPrefixOf loc then some (loc.drop dir.length) else none

theorem below?_eq_some_iff {dir loc : Location} {names : List String} :
    below? dir loc = some names ↔ loc = dir ++ names := by
  rw [below?]
  constructor
  · intro found
    split at found
    · next within =>
      obtain ⟨rest, rfl⟩ := List.isPrefixOf_iff_prefix.mp within
      simp only [List.drop_left', Option.some.injEq] at found
      rw [found]
    · contradiction
  · rintro rfl
    simp

variable [Library]

def readIndex (t : FileTree) (cwd : Location) (r : Repository) (given : Option Path) : Except StageError Index :=
  (Library.readIndex t cwd (indexFileOf r given)).mapError fun fault =>
    match given with
    | some file => .givenIndex file fault
    | none => .ownIndex r.path fault

/-- What staging is about to write. -/
structure Plan where
  file : Path
  index : Index

/-- The index to write for a file, given by its names below the work tree. -/
def planFor (t : FileTree) (cwd : Location) (r : Repository) (given : Option Path) (names : List String) :
    Except StageError Plan := do
  let index ← readIndex t cwd r given
  let added ← (Library.addPath t cwd r given index names).mapError (.refused ("/".intercalate names))
  .ok ⟨indexFileOf r given, added⟩

/-- The index to write for a location. -/
def plan (t : FileTree) (cwd : Location) (given : Option Path) (loc : Location) : Except StageError Plan :=
  if loc = [] then .error .root
  else
    match Library.discover t loc.dropLast with
    | .error fault => .error (.noRepository (Location.path loc.dropLast) fault)
    | .ok r =>
      match r.workTree with
      | none => .error (.bare r.path)
      | some workTree =>
        match t.canonical cwd workTree with
        | .error cause => .error (.noWorkTree workTree cause)
        | .ok tree =>
          match below? tree loc with
          | none => .error (.outside loc.path tree.path)
          | some names => planFor t cwd r given names

/-- Stages the path into the index of the repository around it, or into the
    given index file. -/
def stage (cwd : Location) (given : Option Path) (path : Path) : FileM StageError Unit :=
  FileM.change fun t => do
    let loc ← (t.canonical cwd path).mapError (.missing path)
    let plan ← plan t cwd given loc
    (Library.writeIndex t cwd plan.file plan.index).mapError (.unwritten plan.file)

end ReleaseStamp.Git
