import ReleaseStamp.Git.Fault
import ReleaseStamp.Git.Index
import ReleaseStamp.Git.Repository

/-!
What staging asks of a git library. How a repository is found and set up, and
what the file of an index looks like, is the library's own matter; all else
takes it from here.
-/
namespace ReleaseStamp.Git

/-- A change of bytes that are to be staged, which may look at the entries that
    are there. -/
abbrev Filter := Index → ByteArray → ByteArray

/-- The bytes after the filters, the first one first. -/
def filtered (filters : List Filter) (index : Index) (data : ByteArray) : ByteArray :=
  filters.foldl (fun data filter => filter index data) data

/-- The operations of a git library on a file tree, and what they depend on. -/
class Library where
  /-- The repository around a directory. -/
  discover : FileTree → Location → Except Fault Repository
  /-- The entries in an index file; without the file there are none. -/
  readIndex : FileTree → Location → Path → Except Fault Index
  /-- The entries with the file under the names below the work tree. They are those
      of the repository's index, or of an index file given in its place. -/
  addPath : FileTree → Location → Repository → Option Path → Index → List String → Except Fault Index
  /-- The tree with the entries in an index file. -/
  writeIndex : FileTree → Location → Path → Index → Except Fault FileTree
  /-- The value of a variable in the configuration of a git directory, if it is
      set and if it has one. -/
  setting? : FileTree → Location → String → Option (Option String)
  /-- The content filters that are configured for the names below the work tree,
      in the order of their work. -/
  filters : FileTree → Location → Repository → List String → List Filter
  /-- The index takes names for equal that differ in case only. -/
  foldsCase : FileTree → Repository → Option Path → Bool

end ReleaseStamp.Git
