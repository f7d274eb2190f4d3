import ReleaseStamp.Files.Tree

/-!
Looking a path up in a file tree. A walk goes down the steps of the path,
follows at most `linkLimit` symbolic links, and ends at a node or at a vacant
location whose directory exists.
-/
namespace ReleaseStamp

inductive FileError where
  | notFound
  | alreadyExists
  | notADirectory
  | isADirectory
  | nameTooLong
  | linkLoop
  /-- The content is not a text. -/
  | notText
  /-- The path holds the character that ends paths. -/
  | pathHoldsNul
deriving DecidableEq, Repr

namespace FileError

/-- The reason in words, without its number. -/
def reason : FileError → String
  | .notFound => "No such file or directory"
  | .alreadyExists => "File exists"
  | .notADirectory => "Not a directory"
  | .isADirectory => "Is a directory"
  | .nameTooLong => "File name too long"
  | .linkLoop => "Too many levels of symbolic links"
  | .notText => "stream did not contain valid UTF-8"
  | .pathHoldsNul => "file name contained an unexpected NUL byte"

/-- The number of the reason, for those that the operating system reports. -/
def number? : FileError → Option Nat
  | .notFound => some 2
  | .alreadyExists => some 17
  | .notADirectory => some 20
  | .isADirectory => some 21
  | .nameTooLong => some 36
  | .linkLoop => some 40
  | .notText => none
  | .pathHoldsNul => none

def message (e : FileError) : String :=
  match e.number? with
  | some n => e.reason ++ " (os error " ++ toString n ++ ")"
  | none => e.reason

end FileError

/-- Where a walk ends. -/
inductive Spot where
  | found (loc : Location) (node : Node)
  /-- Nothing lies here, but the directory around it exists. -/
  | vacant (loc : Location)
deriving DecidableEq

/-- Symbolic links that one walk may follow. -/
def linkLimit : Nat := 40

def nameBytes : Nat := 255

/-- Bytes in a whole path, the end mark included. -/
def pathBytes : Nat := 4096

namespace FileTree

/-- A walk from a directory, where `follow` goes on at a symbolic link with the
    steps that remain. If the walk is to create its end, the end must not be
    spelled as a directory. -/
def walkWith (t : FileTree) (create : Bool) (follow : Path → Location → List Step → Except FileError Spot) :
    Location → List Step → Except FileError Spot
  | dir, [] => .ok (.found dir .directory)
  | dir, .stay :: rest => walkWith t create follow dir rest
  | dir, .slash :: rest => walkWith t create follow dir rest
  | dir, .up :: rest => walkWith t create follow dir.dropLast rest
  | dir, .down name :: rest =>
    if create && rest == [.slash] then .error .isADirectory
    else if nameBytes < name.utf8ByteSize then .error .nameTooLong
    else match t.get? (dir ++ [name]) with
      | none => if rest = [] then .ok (.vacant (dir ++ [name])) else .error .notFound
      | some .directory => walkWith t create follow (dir ++ [name]) rest
      | some (.file mode content) =>
        if rest = [] then .ok (.found (dir ++ [name]) (.file mode content)) else .error .notADirectory
      | some (.link target) => follow target dir rest

/-- The directory where the walk of a path starts. -/
def startOf (cwd : Location) (p : Path) : Location := if p.isAbsolute then [] else cwd

/-- A walk that may still follow as many symbolic links as given. -/
def walk (t : FileTree) (create : Bool) : Nat → Location → List Step → Except FileError Spot
  | 0 => t.walkWith create fun _ _ _ => .error .linkLoop
  | links + 1 => t.walkWith create fun target dir rest =>
      t.walk create links (startOf dir target) (target.steps ++ rest)

/-- What makes a path unfit for any lookup. -/
def unfit? (p : Path) : Option FileError :=
  if p.text.toList.contains '\x00' then some .pathHoldsNul
  else if p.isEmpty then some .notFound
  else if pathBytes ≤ p.text.utf8ByteSize then some .nameTooLong
  else none

/-- The end of given steps, walked from the start of the path. -/
def lookupSteps (t : FileTree) (create : Bool) (cwd : Location) (p : Path) (steps : List Step) :
    Except FileError Spot :=
  match unfit? p with
  | some e => .error e
  | none =>
    if t.get? (startOf cwd p) = some .directory then t.walk create linkLimit (startOf cwd p) steps
    else .error .notFound

/-- Where a path leads from the working directory. -/
def lookup (t : FileTree) (create : Bool) (cwd : Location) (p : Path) : Except FileError Spot :=
  t.lookupSteps create cwd p p.steps

/-- The node at the end of a path, with its location. -/
def find (t : FileTree) (cwd : Location) (p : Path) : Except FileError (Location × Node) :=
  match t.lookup false cwd p with
  | .ok (.found loc node) => .ok (loc, node)
  | .ok (.vacant _) => .error .notFound
  | .error e => .error e

/-- The location of what a path leads to, without links or dots. -/
def canonical (t : FileTree) (cwd : Location) (p : Path) : Except FileError Location :=
  (t.find cwd p).map (·.1)

def has (t : FileTree) (cwd : Location) (p : Path) : Bool := (t.find cwd p).toBool

def isDirectory (t : FileTree) (cwd : Location) (p : Path) : Bool :=
  match t.find cwd p with
  | .ok (_, .directory) => true
  | _ => false

def isFile (t : FileTree) (cwd : Location) (p : Path) : Bool :=
  match t.find cwd p with
  | .ok (_, .file _ _) => true
  | _ => false

/-- The directory entry that a path names, a link at its end not followed. A
    path that ends in a dot or at the root names no entry. -/
def entry? (t : FileTree) (cwd : Location) (p : Path) : Except FileError (Option Location) :=
  match (p.steps.filter (· ≠ .slash)).reverse with
  | .down name :: before => do
    match ← t.lookupSteps false cwd p (before.reverse ++ [.slash]) with
    | .found dir _ =>
      if nameBytes < name.utf8ByteSize then .error .nameTooLong else .ok (some (dir ++ [name]))
    | .vacant _ => .error .notFound
  | steps => do
    let _ ← t.lookupSteps false cwd p steps.reverse
    .ok none

end FileTree

end ReleaseStamp
