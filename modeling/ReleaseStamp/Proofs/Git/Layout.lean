import ReleaseStamp.Git.Library
import ReleaseStamp.Proofs.Files.Lookups

/-!
Where repositories lie, told by the files of a tree. A git directory is told by
what it holds (`GitDirectory`). A directory tells of one by its entry `.git`,
which may be a link to a place far away, or by being one (`RepositoryAt`), and
the nearest directory that does so counts (`Discovers`). The work tree of a
repository is told by its git directory (`WorkTreePath`), unless it has none
(`Bare`).
-/
namespace ReleaseStamp.Git

variable (t : FileTree)

/-! ## Paths in files -/

/-- The text is the core with blanks behind it. -/
structure Trimmed (text core : List Char) : Prop where
  blanks : ∃ blanks, text = core ++ blanks ∧ ∀ c ∈ blanks, ConfigFile.isBlank c = true
  ends : ∀ c, core.getLast? = some c → ConfigFile.isBlank c = false

/-- A file in a directory names a path. -/
def Names (dir : Location) (file : String) (path : Path) : Prop :=
  ∃ text, t.readText dir ⟨file⟩ = .ok text ∧ Trimmed text.toList path.text.toList

/-- The text of a link file: a key, blanks, and the path that it leads to. -/
structure LinkText (text : String) (path : Path) : Prop where
  spelled : ∃ blanks, Trimmed text.toList ("gitdir:".toList ++ blanks ++ path.text.toList) ∧
    ∀ c ∈ blanks, ConfigFile.isBlank c = true
  begins : ∃ c rest, path.text.toList = c :: rest ∧ ConfigFile.isBlank c = false

/-! ## Git directories -/

/-- The directory that a git directory shares with others: itself, unless a file
    in it names another. -/
inductive CommonDirectory (dir : Location) : Location → Prop where
  | own : t.isFile dir ⟨"commondir"⟩ = false → CommonDirectory dir dir
  | shared {path : Path} {common : Location} : Names t dir "commondir" path →
      t.canonical dir (dir.directoryPath.join path) = .ok common → CommonDirectory dir common

/-- A git directory has a head, and objects and references that it may share. -/
structure GitDirectory (dir : Location) : Prop where
  head : t.isFile dir ⟨"HEAD"⟩ = true
  shares : ∃ common, CommonDirectory t dir common ∧ t.isDirectory common ⟨"objects"⟩ = true ∧
    t.isDirectory common ⟨"refs"⟩ = true

/-- The git directory that the entry `.git` of a directory is or leads to. -/
inductive DotGit (dir : Location) : Location → Prop where
  | directory {loc : Location} : t.find dir ⟨".git"⟩ = .ok (loc, .directory) → GitDirectory t loc → DotGit dir loc
  | link {text : String} {path : Path} {loc : Location} : t.readText dir ⟨".git"⟩ = .ok text → LinkText text path →
      t.canonical dir (dir.path.join path) = .ok loc → GitDirectory t loc → DotGit dir loc

/-- The git directory that a directory tells of. Its entry `.git` counts before
    what it is itself. -/
inductive RepositoryAt (dir : Location) : Location → Prop where
  | inside {loc : Location} : DotGit t dir loc → RepositoryAt dir loc
  | itself : GitDirectory t dir → (∀ loc, ¬ DotGit t dir loc) → RepositoryAt dir dir

/-- The git directory that a directory tells of, or else the first above it that
    tells of any. -/
def Nearest (dir found : Location) : Prop :=
  ∃ around, around <+: dir ∧ RepositoryAt t around found ∧
    ∀ inner loc, inner <+: dir → around.length < inner.length → ¬ RepositoryAt t inner loc

/-- The git directory of the repository around a directory. The nearest one is
    opened as any directory is, so that an entry `.git` in it would count. -/
def Discovers (dir directory : Location) : Prop := ∃ found, Nearest t dir found ∧ RepositoryAt t found directory

/-- A git directory without an entry `.git` stands for itself. -/
theorem RepositoryAt.eq_of_not_has {t : FileTree} {dir directory : Location} (tells : RepositoryAt t dir directory)
    (none_ : t.has dir ⟨".git"⟩ = false) : directory = dir := by
  cases tells with
  | itself => rfl
  | inside holds =>
    cases holds with
    | directory found_ => simp [FileTree.has, found_, Except.toBool] at none_
    | link read =>
      obtain ⟨_, _, _, found_, -⟩ := FileTree.find_of_readText read
      simp [FileTree.has, found_, Except.toBool] at none_

/-- Where no repository has another one inside, the nearest one counts. -/
theorem Discovers.nearest {t : FileTree} {dir directory : Location} (discovers : Discovers t dir directory)
    (plain : ∀ found, Nearest t dir found → t.has found ⟨".git"⟩ = false) : Nearest t dir directory := by
  obtain ⟨found, nearest, tells⟩ := discovers
  obtain rfl := tells.eq_of_not_has (plain found nearest)
  exact nearest

/-! ## Work trees -/

/-- A value that stands for the truth; a variable without a value does, too. -/
def Affirms (value : Option String) : Prop :=
  ∀ word, value = some word → word = "1" ∨ ConfigFile.lower word.toList ∈ ["true".toList, "yes".toList, "on".toList]

/-- A value that stands for the opposite. -/
def Denies (value : Option String) : Prop :=
  ∃ word, value = some word ∧ (word = "0" ∨ ConfigFile.lower word.toList ∈ ["false".toList, "no".toList, "off".toList, []])

variable [Library]

/-- A repository without a work tree: a setting says so, and no work tree far
    away is linked to it. -/
def Bare (directory : Location) : Prop :=
  t.isFile directory ⟨"gitdir"⟩ = false ∧ ∃ value, Library.setting? t directory "core.bare" = some value ∧ Affirms value

/-- A path names an entry of the directory that the other path names; the root
    stands for its own entry. -/
def Around (path around : Path) : Prop :=
  ∃ front slashes name ending, path.text.toList = front ++ slashes ++ name ++ ending ∧
    around.text.toList = front ++ ['/'] ∧ (slashes ≠ [] ∧ ∀ c ∈ slashes ++ ending, c = '/') ∧
    '/' ∉ name ∧ (name = [] → front = [])

/-- The path of the work tree: around the link file that the git directory names,
    or where a setting puts it, or else around the git directory. -/
inductive WorkTreePath (directory : Location) : Path → Prop where
  | linked {link shown : Path} : Names t directory "gitdir" link → Around (directory.directoryPath.join link) shown →
      WorkTreePath directory shown
  | moved {value : String} {loc : Location} : t.isFile directory ⟨"gitdir"⟩ = false →
      Library.setting? t directory "core.worktree" = some (some value) →
      t.canonical directory (directory.directoryPath.join ⟨value⟩) = .ok loc → WorkTreePath directory loc.directoryPath
  | around : t.isFile directory ⟨"gitdir"⟩ = false →
      (∀ value, Library.setting? t directory "core.worktree" ≠ some (some value)) →
      WorkTreePath directory (Location.directoryPath directory.dropLast)

end ReleaseStamp.Git
