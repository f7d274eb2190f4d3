import ReleaseStamp.CommandLine.Run
import ReleaseStamp.Proofs.Git.Builtin

/-!
Staging a file with any lawful git library. The entry is named by the way from
the work tree of the nearest repository to the file (`InWorkTree`), and the one
file that changes is the index in use, where only the entries that cannot stand
beside the new one are lost (`stage_nearest`).
-/
namespace ReleaseStamp.Git

open FileTree

section

variable [Library] {t t' : FileTree} {cwd loc place : Location} {given : Option Path} {path file : Path}
  {names : List String} {r : Repository} {old new : Index}

/-! ## The plan -/

/-- A location lies below the work tree of the repository around it, which is
    not bare. -/
structure InWorkTree (t : FileTree) (cwd loc : Location) (r : Repository) (names : List String) : Prop where
  repository : Discovers t loc.dropLast r.directory
  notBare : ¬ Bare t r.directory
  below : ∃ shown tree, r.workTree = some shown ∧ WorkTreePath t r.directory shown ∧ t.canonical cwd shown = .ok tree ∧
    loc = tree ++ names
  inside : names ≠ []

/-- Nothing lies in the work tree of a repository that its config file sets to be
    bare, unless a work tree is linked to it. -/
theorem InWorkTree.not_set_bare [LawfulLibrary] {sections : List ConfigFile.Section} {word : String}
    (within : InWorkTree t cwd loc r names) (config : PlainConfig t r.directory sections)
    (alone : t.isFile r.directory ⟨"gitdir"⟩ = false) (sets : ConfigFile.Sets sections "core.bare" word) :
    ¬ Affirms (some word) := fun affirms =>
  within.notBare ⟨alone, some word, LawfulLibrary.setting config sets, affirms⟩

theorem plan_eq_ok {planned : Plan} (plans : plan t cwd given loc = .ok planned) :
    ∃ r shown tree names old new, Library.discover t loc.dropLast = .ok r ∧ r.workTree = some shown ∧
      t.canonical cwd shown = .ok tree ∧ loc = tree ++ names ∧ Library.readIndex t cwd (indexFileOf r given) = .ok old ∧
      Library.addPath t cwd r given old names = .ok new ∧ planned = ⟨indexFileOf r given, new⟩ := by
  -- Each case but one is a refusal; the facts of the last case are what has been checked.
  rw [plan] at plans
  split_ifs at plans with root
  split at plans
  · contradiction
  next r discovered =>
  split at plans
  · contradiction
  next shown tree_ =>
  split at plans
  · contradiction
  next tree resolved =>
  split at plans
  · contradiction
  next names below =>
  rw [planFor] at plans
  obtain ⟨old, read, plans⟩ := bind_eq_ok_iff.mp plans
  obtain ⟨new, added, plans⟩ := bind_eq_ok_iff.mp plans
  rw [mapError_eq_ok_iff] at added
  rw [readIndex, mapError_eq_ok_iff] at read
  cases plans
  exact ⟨r, shown, tree, names, old, new, discovered, tree_, resolved, below?_eq_some_iff.mp below, read, added, rfl⟩

/-! ## The index before and after -/

theorem updates_of_write [LawfulLibrary] (written : Library.writeIndex t cwd file new = .ok t')
    (read : Library.readIndex t cwd file = .ok old) : ∃ place, Updates t t' cwd file place old new := by
  obtain ⟨place, mode, leads, rfl⟩ := LawfulLibrary.write written
  have before := LawfulLibrary.read read leads
  obtain ⟨shown, looked, leaf⟩ := leads
  have there := Shows.file (get?_put_self t (.file mode (.index new)) (ne_nil_of_shows leaf))
  refine ⟨place, changesAt_of_lookup looked leaf (sameBut_put _), before, mode, find_eq_ok_iff.mpr ?_⟩
  exact lookupSteps_reread looked (sameBut_put _) leaf (.inl ⟨leaf, there⟩)

/-! ## Staging -/

/-- What a run of staging that ends well has done. -/
structure Stages (t t' : FileTree) (cwd : Location) (given : Option Path) (loc : Location) (r : Repository)
    (place : Location) (names : List String) (old new : Index) : Prop where
  within : InWorkTree t cwd loc r names
  index : Updates t t' cwd (indexFileOf r given) place old new
  entry : ∀ mode content, t.get? loc = some (.file mode content) →
    Adds (Library.foldsCase t r given) ("/".intercalate names)
      (filtered (Library.filters t cwd r names) old content.raw) old new
  unfiltered : ∀ mode content, t.get? loc = some (.file mode content) → Unfiltered t cwd r names content.raw →
    filtered (Library.filters t cwd r names) old content.raw = content.raw
  folded : Library.foldsCase t r given = true →
    given = none ∧ ∃ value, Library.setting? t r.directory "core.ignorecase" = some value ∧ ¬ Denies value

theorem stage_ok [LawfulLibrary] (done : (stage cwd given path t).1 = .ok ()) :
    ∃ loc r place names old new, t.canonical cwd path = .ok loc ∧
      Stages t (stage cwd given path t).2 cwd given loc r place names old new := by
  obtain ⟨t', staged, same⟩ := FileM.change_eq_ok done
  rw [stage, same]
  obtain ⟨loc, resolved, staged⟩ := bind_eq_ok_iff.mp staged
  obtain ⟨planned, plans, staged⟩ := bind_eq_ok_iff.mp staged
  rw [mapError_eq_ok_iff] at resolved staged
  obtain ⟨r, shown, tree, names, old, new, discovered, tree_, leads, rfl, read, added, rfl⟩ := plan_eq_ok plans
  obtain ⟨place, updates⟩ := updates_of_write staged read
  refine ⟨_, r, place, names, old, new, resolved, ⟨?_, ?_, ?_, ?_⟩, updates, fun mode content here => ?_,
    fun _ _ _ plain => filtered_eq plain old, LawfulLibrary.folds⟩
  · exact LawfulLibrary.discovers discovered
  · exact LawfulLibrary.notBare discovered tree_
  · exact ⟨shown, tree, tree_, LawfulLibrary.workTree discovered tree_ leads, leads, rfl⟩
  · exact LawfulLibrary.inside added
  · exact LawfulLibrary.add added tree_ leads here

/-- A failure of staging changes nothing. -/
theorem stage_error {e : StageError} (failed : (stage cwd given path t).1 = .error e) :
    (stage cwd given path t).2 = t :=
  FileM.change_eq_error failed

end

/-! ## The index in use -/

/-- The index file that a variable of the environment names; an empty name is none. -/
def givenIndex (value? : String → Option String) : Option Path :=
  match value? "GIT_INDEX_FILE" with
  | some name => if name = "" then none else some ⟨name⟩
  | none => none

theorem indexFile_ofVariables (cwd : Location) (value? : String → Option String) :
    (CommandLine.Surroundings.ofVariables cwd value?).indexFile = givenIndex value? := by
  rw [givenIndex, CommandLine.Surroundings.ofVariables]
  cases value? "GIT_INDEX_FILE" with
  | none => rfl
  | some name =>
    by_cases empty : name = ""
    · subst empty
      rfl
    · simp [Option.filter, empty]

/-- Staging that fails changes nothing. Where it succeeds, the file lies below
    the work tree of the nearest repository, which is not bare, and goes into the
    index that the environment names, or else into that of the repository. It
    goes under its path below the work tree, in a spelling that the index takes
    for the same, and with what the content filters make of its bytes. The entries
    that can stand beside it are still there, and no other file changes. -/
theorem stage_nearest [Library] [LawfulLibrary] (cwd : Location) (value? : String → Option String) (path : Path)
    (t : FileTree) :
    (∀ e, (stage cwd (CommandLine.Surroundings.ofVariables cwd value?).indexFile path t).1 = .error e →
      (stage cwd (CommandLine.Surroundings.ofVariables cwd value?).indexFile path t).2 = t) ∧
    ((stage cwd (CommandLine.Surroundings.ofVariables cwd value?).indexFile path t).1 = .ok () →
      ∃ loc r place names old new, t.canonical cwd path = .ok loc ∧
        Stages t (stage cwd (CommandLine.Surroundings.ofVariables cwd value?).indexFile path t).2 cwd
          (givenIndex value?) loc r place names old new) := by
  rw [indexFile_ofVariables]
  exact ⟨fun e failed => stage_error failed, fun done => stage_ok done⟩

/-- A work tree with one file. -/
def oneFile : FileTree :=
  (Repository.create (FileTree.empty.put ["work"] .directory) ["work"] false).put ["work", "notes"]
    (.file 0o644 (.ofText "one"))

theorem stage_nearest_oneFile :
    (stage ["work"] none ⟨"notes"⟩ oneFile).1 = .ok () ∧
      ∃ loc r place names old new, oneFile.canonical ["work"] ⟨"notes"⟩ = .ok loc ∧
        Stages oneFile (stage ["work"] none ⟨"notes"⟩ oneFile).2 ["work"] none loc r place names old new := by
  have done : (stage ["work"] none ⟨"notes"⟩ oneFile).1 = .ok () := by decide +kernel
  exact ⟨done, (stage_nearest ["work"] (fun _ => none) ⟨"notes"⟩ oneFile).2 done⟩

/-- A work tree with a file, settings, and entries in its index. -/
def configured (settings text : String) (index : Index) : FileTree :=
  ((oneFile.put ["work", ".git", "config"] (.file 0o644 (.ofText settings))).put ["work", "notes"]
    (.file 0o644 (.ofText text))).put ["work", ".git", "index"] (.file newFileMode (.index index))

/-- Not every entry holds the bytes of its file, since a setting can have carriage
    returns removed, and not every entry goes by the path of its file, since a
    setting can have an entry keep its path that differs from it in case. -/
theorem stage_other_bytes_other_path :
    (stage ["work"] none ⟨"notes"⟩ (configured "[core]\n\tautocrlf = input\n" "a\r\nb\r\n" [])).1 = .ok () ∧
      (stage ["work"] none ⟨"notes"⟩ (configured "[core]\n\tautocrlf = input\n" "a\r\nb\r\n" [])).2.get?
        ["work", ".git", "index"] =
          some (.file newFileMode (.index [⟨"notes", false, .bytes "a\nb\n".toUTF8⟩])) ∧
      (stage ["work"] none ⟨"notes"⟩ (configured "[core]\n\tignorecase = true\n" "one"
        [⟨"NOTES", false, .bytes "two".toUTF8⟩])).1 = .ok () ∧
      (stage ["work"] none ⟨"notes"⟩ (configured "[core]\n\tignorecase = true\n" "one"
        [⟨"NOTES", false, .bytes "two".toUTF8⟩])).2.get? ["work", ".git", "index"] =
          some (.file newFileMode (.index [⟨"NOTES", false, .bytes "one".toUTF8⟩])) := by
  decide +kernel

end ReleaseStamp.Git
