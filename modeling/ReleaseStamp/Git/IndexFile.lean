import ReleaseStamp.Git.Index

/-!
The file of an index. Where it is written, its path is followed one symbolic
link at a time, and a lock file beside it keeps others away.
-/
namespace ReleaseStamp.Git

namespace Index

/-! ## Reading -/

/-- The least size of an index: its header and its checksum. -/
def leastSize : Nat := 32

/-- The size of the checksum at the end of an index. -/
def checksumSize : Nat := 20

/-- The entries of a file that is to be an index. -/
def ofContent (file : Path) : Content → Except Fault Index
  | .index entries => .ok entries
  | .bytes data =>
    if data.size < checksumSize then .error (.indexGone file)
    else if data.size < leastSize then .error (.index .tooShort)
    else if data.toList.take 4 ≠ Content.signature then .error (.index .signature)
    else if (data.toList.drop 4).take 4 ∉ [[0, 0, 0, 2], [0, 0, 0, 3], [0, 0, 0, 4]] then
      .error (.index .version)
    else .error (.index .checksum)

/-- The entries in a file; without the file there are none. -/
def read (t : FileTree) (cwd : Location) (file : Path) : Except Fault Index :=
  match t.find cwd file with
  | .error _ => .ok []
  | .ok (_, .file _ content) => ofContent file content
  | .ok _ => .error (.indexGone file)

/-! ## Writing -/

/-- Symbolic links that writing an index may follow. -/
def linkLimit : Nat := 5

/-- Where a file is sought while links are followed one by one. -/
structure Aim where
  /-- The directory that the path is seen from. -/
  start : Location
  path : Path
  /-- The path as faults tell it. -/
  shown : Path

namespace Aim

/-- A path that no link was followed for. -/
def direct (cwd : Location) (file : Path) : Aim := ⟨cwd, file, file⟩

/-- The target of the link at a location. -/
def through (link : Location) (target : Path) : Aim :=
  ⟨link.dropLast, target, (Location.path link.dropLast).join target⟩

/-- The file that locks what lies here. -/
def lock (aim : Aim) : Aim := ⟨aim.start, ⟨aim.path.text ++ ".lock"⟩, ⟨aim.shown.text ++ ".lock"⟩⟩

/-- The directory entry that is named here. -/
def entry? (t : FileTree) (aim : Aim) : Except FileError (Option Location) :=
  match FileTree.unfit? aim.shown with
  | some cause => .error cause
  | none => t.entry? aim.start aim.path

end Aim

/-- Where the file lies that an index path leads to, one link after the other. -/
def target (t : FileTree) : Nat → Aim → Except Fault Aim
  | 0, _ => .error .linkDepth
  | links + 1, aim =>
    match aim.entry? t with
    | .error .notFound | .ok none => .ok aim
    | .error cause => .error (.unstatable aim.shown cause)
    | .ok (some loc) =>
      match t.get? loc with
      | some (.link next) => target t links (.through loc next)
      | _ => .ok aim

/-- Where an index is to be written, if nobody else is writing it. -/
def writable (t : FileTree) (cwd : Location) (file : Path) : Except Fault Location := do
  let aim ← target t linkLimit (.direct cwd file)
  match aim.lock.entry? t with
  | .error cause => .error (.unlockable aim.lock.shown cause)
  | .ok none => .error (.unlockable aim.lock.shown .isADirectory)
  | .ok (some lock) =>
    if (t.get? lock).isSome then .error .locked
    else match aim.entry? t with
      | .error cause => .error (.unstatable aim.shown cause)
      | .ok none => .error (.unstatable aim.shown .isADirectory)
      | .ok (some loc) => if t.get? loc = some .directory then .error (.unreplaceable aim.shown) else .ok loc

/-- The tree with the entries in an index file. The time of the new file is
    looked up by its path, which may lead through more links than a lookup follows. -/
def write (t : FileTree) (cwd : Location) (file : Path) (index : Index) : Except Fault FileTree := do
  let loc ← writable t cwd file
  let written := t.put loc (.file FileTree.newFileMode (.index index))
  if written.has cwd file then .ok written else .error .unstamped

end Index

end ReleaseStamp.Git
