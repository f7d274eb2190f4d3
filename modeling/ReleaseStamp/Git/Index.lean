import ReleaseStamp.Git.ConfigFile

/-!
The index of a repository: its entries in the order of their paths, and the
names it refuses. Adding an entry replaces the one of the same path, and
removes those that cannot stand beside it (`Index.add`).
-/
namespace ReleaseStamp.Git

abbrev Index := List StagedEntry

/-- A file whose mode lets its owner run it. -/
def isExecutable (mode : Nat) : Bool := mode / 64 % 2 == 1

namespace Index

/-! ## Entries -/

def isBelow (path other : String) : Bool := (other.toList ++ ['/']).isPrefixOf path.toList

/-- Two paths that cannot be entries of the same index. -/
def collide (path other : String) : Bool := path == other || isBelow path other || isBelow other path

/-- The entries with one more, in its place. -/
def insert (entry : StagedEntry) : Index → Index
  | [] => [entry]
  | head :: rest => if entry.path < head.path then entry :: head :: rest else head :: insert entry rest

/-- The index with an entry that takes its path over. -/
def add (entry : StagedEntry) (index : Index) : Index :=
  insert entry (index.filter fun other => !collide entry.path other.path)

theorem mem_insert {entry other : StagedEntry} {index : Index} :
    other ∈ insert entry index ↔ other = entry ∨ other ∈ index := by
  induction index with
  | nil => simp [insert]
  | cons head rest ih =>
    rw [insert]
    split
    · simp
    · simp only [List.mem_cons, ih]
      exact or_left_comm

/-- What is in an index after adding an entry: the entry, and whatever can stand
    beside it. -/
theorem mem_add {entry other : StagedEntry} {index : Index} :
    other ∈ add entry index ↔ other = entry ∨ other ∈ index ∧ collide entry.path other.path = false := by
  simp [add, mem_insert, List.mem_filter]

/-- The names that a path must not hold, since they lead into a git directory. -/
def reserved : List (List Char) := [".git".toList, "git~1".toList]

/-- A name that means a reserved one on some system: the name itself in any
    case, also with an ending that is cut off there. -/
def isReserved (name : List Char) : Bool :=
  reserved.any fun word =>
    ConfigFile.lower (name.take word.length) == word &&
      match name.drop word.length with
      | [] => true
      | c :: rest => c == '\\' || c == ':' || (c :: rest).all fun d => d == ' ' || d == '.'

/-! ## Names that differ in case -/

def fold (path : String) : List Char := ConfigFile.lower path.toList

/-- The path with as many of its directories as the index knows spelled as they
    are there. -/
def respellDirectory (index : Index) (path : List Char) : List Char :=
  ((List.range path.length).reverse.findSome? fun count =>
    let front := path.take (count + 1)
    if front.getLast? = some '/' then
      let known := (index.find? (front.isPrefixOf ·.path.toList)).or
        (index.find? ((ConfigFile.lower front).isPrefixOf <| fold ·.path))
      known.map fun entry => entry.path.toList.take (count + 1) ++ path.drop (count + 1)
    else none).getD path

/-- The path as an index spells it that takes names for equal if they differ in
    case only. -/
def respell (index : Index) (path : String) : String :=
  match index.find? (fold ·.path = fold path) with
  | some entry => entry.path
  | none => String.ofList (respellDirectory index path.toList)

end Index

end ReleaseStamp.Git
