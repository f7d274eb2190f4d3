import ReleaseStamp.Proofs.Git.ConfigFile
import ReleaseStamp.Proofs.Git.Index
import ReleaseStamp.Proofs.Git.IndexFile
import ReleaseStamp.Proofs.Git.Layout

/-!
What is relied on in a git library (`LawfulLibrary`): each law says of one
operation that succeeds what it has answered or written. Nothing is asked of an
operation that fails, and nothing of configurations beyond plain files.
-/
namespace ReleaseStamp.Git

/-- A configuration in one plain file: the common directory holds the sections
    and nothing that leads to other files. -/
structure PlainConfig (t : FileTree) (directory : Location) (sections : List ConfigFile.Section) : Prop where
  file : ∃ common, CommonDirectory t directory common ∧ t.readText common ⟨"config"⟩ = .ok (ConfigFile.render sections)
  plain : ∀ s ∈ sections, s.Plain ∧ s.name ∉ ["include", "includeif"]
  alone : t.isFile directory ⟨"config.worktree"⟩ = false

/-- The bytes that a content filter may change: a carriage return, and the sign
    that keywords are written with. -/
def Filterable (b : UInt8) : Prop := b = 0x0D ∨ b = 0x24

/-- What is relied on in a git library. -/
class LawfulLibrary [Library] : Prop where
  /-- The repository that is discovered is the nearest one. -/
  discovers {t : FileTree} {dir : Location} {r : Repository} : Library.discover t dir = .ok r → Discovers t dir r.directory
  /-- A bare repository has no work tree. -/
  notBare {t : FileTree} {dir : Location} {r : Repository} {shown : Path} : Library.discover t dir = .ok r →
    r.workTree = some shown → ¬ Bare t r.directory
  /-- A work tree lies where the git directory has it. -/
  workTree {t : FileTree} {dir cwd tree : Location} {r : Repository} {shown : Path} : Library.discover t dir = .ok r →
    r.workTree = some shown → t.canonical cwd shown = .ok tree → WorkTreePath t r.directory shown
  /-- A variable has the value that a plain config file sets it to last. -/
  setting {t : FileTree} {directory : Location} {sections : List ConfigFile.Section} {name value : String} :
    PlainConfig t directory sections → ConfigFile.Sets sections name value →
      Library.setting? t directory name = some (some value)
  /-- A content filter changes line ends and keywords only. -/
  filter {t : FileTree} {cwd : Location} {r : Repository} {names : List String} {filter : Filter} {index : Index}
    {data : ByteArray} : filter ∈ Library.filters t cwd r names → (∀ b ∈ data.data, ¬ Filterable b) →
      filter index data = data
  /-- Names that differ in case are taken for equal in the index of a repository
      only, and only if a setting says so. -/
  folds {t : FileTree} {r : Repository} {given : Option Path} : Library.foldsCase t r given = true →
    given = none ∧ ∃ value, Library.setting? t r.directory "core.ignorecase" = some value ∧ ¬ Denies value
  /-- What is read are the entries of the index that the path leads to. -/
  read {t : FileTree} {cwd place : Location} {file : Path} {index : Index} : Library.readIndex t cwd file = .ok index →
    t.LeadsTo cwd file place → Held t place index
  /-- The work tree itself cannot be added. -/
  inside {t : FileTree} {cwd : Location} {r : Repository} {given : Option Path} {old new : Index} {names : List String} :
    Library.addPath t cwd r given old names = .ok new → names ≠ []
  /-- A file that is added is recorded under its path below the work tree, or a
      spelling of it that the index takes for equal, with what the content
      filters make of its bytes. -/
  add {t : FileTree} {cwd tree : Location} {r : Repository} {given : Option Path} {old new : Index}
    {names : List String} {shown : Path} {mode : Nat} {content : Content} :
      Library.addPath t cwd r given old names = .ok new → r.workTree = some shown → t.canonical cwd shown = .ok tree →
      t.get? (tree ++ names) = some (.file mode content) →
      Adds (Library.foldsCase t r given) ("/".intercalate names)
        (filtered (Library.filters t cwd r names) old content.raw) old new
  /-- An index is written to the place that its path leads to, and nothing else is. -/
  write {t t' : FileTree} {cwd : Location} {file : Path} {index : Index} : Library.writeIndex t cwd file index = .ok t' →
    ∃ place mode, t.LeadsTo cwd file place ∧ t' = t.put place (.file mode (.index index))

/-- No content filter is configured for a file, or there is nothing in its bytes
    for one to change. -/
def Unfiltered [Library] (t : FileTree) (cwd : Location) (r : Repository) (names : List String) (data : ByteArray) :
    Prop :=
  Library.filters t cwd r names = [] ∨ ∀ b ∈ data.data, ¬ Filterable b

theorem filtered_eq [Library] [LawfulLibrary] {t : FileTree} {cwd : Location} {r : Repository} {names : List String}
    {data : ByteArray} (kept : Unfiltered t cwd r names data) (index : Index) :
    filtered (Library.filters t cwd r names) index data = data := by
  have each : ∀ filter ∈ Library.filters t cwd r names, filter index data = data := by
    intro filter configured
    rcases kept with none_ | plain
    · simp [none_] at configured
    · exact LawfulLibrary.filter configured plain
  revert each
  rw [filtered]
  induction Library.filters t cwd r names with
  | nil => exact fun _ => rfl
  | cons filter later ih =>
    intro each
    rw [List.foldl_cons, each filter List.mem_cons_self]
    exact ih fun other member => each other (List.mem_cons_of_mem _ member)

end ReleaseStamp.Git
