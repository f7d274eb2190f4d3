import ReleaseStamp.Files.Access

/-!
What can be wrong with a git repository, its config file or its index, and how
each fault is told: its text, the part of git that it comes from, and a code
for those that a caller may want to tell apart.
-/
namespace ReleaseStamp.Git

inductive IndexFault where
  | tooShort
  | signature
  | version
  | checksum
deriving DecidableEq, Repr

def IndexFault.text : IndexFault → String
  | .tooShort => "insufficient buffer space"
  | .signature => "incorrect header signature"
  | .version => "incorrect header version"
  | .checksum => "calculated checksum does not match expected"

/-- What is wrong in a line of a config file. -/
inductive ConfigFault where
  | unclosedHeader
  | headerCharacter (column : Nat)
  | key
deriving DecidableEq, Repr

def ConfigFault.text : ConfigFault → String
  | .unclosedHeader => "missing ']' in section header"
  | .headerCharacter _ => "unexpected character in header"
  | .key => "invalid configuration key"

/-- The column that is told with the fault. -/
def ConfigFault.column? : ConfigFault → Option Nat
  | .headerCharacter column => some column
  | .unclosedHeader | .key => none

inductive Fault where
  | noRepository (start : Path)
  | malformedLink (link : Path)
  | unresolved (path : Path) (cause : FileError)
  | config (file : Path) (line : Nat) (fault : ConfigFault)
  | escape (rest : String)
  | boolean (value : String)
  | integer (value : String)
  /-- A value that is none of those that a setting knows. -/
  | unmapped (value : String)
  | includeDepth
  | format (version : Int)
  | extension (name : String)
  | indexGone (file : Path)
  | index (fault : IndexFault)
  | bare
  | emptyPath
  | invalidPath (path : String)
  | directory (path : Path)
  | unborn (reference : String)
  | locked
  | unlockable (lock : Path) (cause : FileError)
  | unstatable (file : Path) (cause : FileError)
  | unreplaceable (file : Path)
  | unstamped
  | linkDepth
deriving DecidableEq, Repr

/-- The newest format of a repository that is understood. -/
def newestFormat : Int := 1

namespace Fault

def text : Fault → String
  | .noRepository start => "could not find repository at '" ++ start.text ++ "'"
  | .malformedLink link => "the `.git` file at '" ++ link.text ++ "' is malformed"
  | .unresolved path cause => "failed to resolve path '" ++ path.text ++ "': " ++ cause.reason
  | .config file line fault =>
    "failed to parse config file: " ++ fault.text ++ " (in " ++ file.text ++ ":" ++ toString line ++
      ((fault.column?.map fun column => ", column " ++ toString column).getD "") ++ ")"
  | .escape rest => "invalid escape at " ++ rest
  | .boolean value => "failed to parse '" ++ value ++ "' as a boolean value"
  | .integer value => "failed to parse '" ++ value ++ "' as an integer"
  | .unmapped value => "failed to map '" ++ value ++ "'"
  | .includeDepth => "maximum config include depth reached"
  | .format version =>
    if version < 0 then "invalid repository version " ++ toString version
    else "unsupported repository version " ++ toString version ++ "; only versions up to " ++
      toString newestFormat ++ " are supported"
  | .extension name => "unsupported extension name " ++ name
  | .indexGone file => "failed to read index: '" ++ file.text ++ "' no longer exists"
  | .index fault => "invalid data in index - " ++ fault.text
  | .bare => "cannot create blob from file. This operation is not allowed against bare repositories."
  | .emptyPath => "repo path should not be empty"
  | .invalidPath path => "invalid path: '" ++ path ++ "'"
  | .directory path => "cannot create blob from '" ++ path.text ++ "': it is a directory"
  | .unborn reference => "reference '" ++ reference ++ "' not found"
  | .locked => "the index is locked; this might be due to a concurrent or crashed process"
  | .unlockable lock cause => "failed to create locked file '" ++ lock.text ++ "': " ++ cause.reason
  | .unstatable file cause => "failed to stat '" ++ file.text ++ "': " ++ cause.reason
  | .unreplaceable file => "failed to rename lockfile to '" ++ file.text ++ "': " ++ FileError.isADirectory.reason
  | .unstamped => "could not read index timestamp"
  | .linkDepth => "maximum symlink depth reached"

/-- The part of git that a fault comes from, with its number. -/
def origin? : Fault → Option (String × Nat)
  | .noRepository _ | .malformedLink _ | .format _ | .extension _ | .bare => some ("Repository", 6)
  | .unresolved _ _ | .unlockable _ _ | .unstatable _ _ | .unreplaceable _ | .unstamped | .linkDepth =>
    some ("Os", 2)
  | .config _ _ _ | .escape _ | .boolean _ | .integer _ | .unmapped _ | .includeDepth => some ("Config", 7)
  | .indexGone _ | .index _ | .invalidPath _ | .locked => some ("Index", 10)
  | .directory _ => some ("Odb", 9)
  | .unborn _ => some ("Reference", 4)
  | .emptyPath => none

/-- The code of a path that cannot be reached. -/
def reachCode? : FileError → Option (String × Int)
  | .notFound | .notADirectory => some ("NotFound", -3)
  | _ => none

/-- The code of a fault, with its number. -/
def code? : Fault → Option (String × Int)
  | .noRepository _ => some ("NotFound", -3)
  | .unresolved _ cause => reachCode? cause
  | .unlockable _ cause => if cause = .notFound then some ("NotFound", -3) else none
  | .directory _ => some ("Directory", -23)
  | .bare => some ("BareRepo", -8)
  | .unborn _ => some ("UnbornBranch", -9)
  | .locked => some ("Locked", -14)
  | _ => none

def message (fault : Fault) : String :=
  fault.text ++
    ((fault.origin?.map fun (name, number) => "; class=" ++ name ++ " (" ++ toString number ++ ")").getD "") ++
    ((fault.code?.map fun (name, number) => "; code=" ++ name ++ " (" ++ toString number ++ ")").getD "")

end Fault

end ReleaseStamp.Git
