import ReleaseStamp.Git.Discovery
import ReleaseStamp.Proofs.Files.Lookups
import ReleaseStamp.Proofs.Git.Layout

/-!
The search for a git directory against the files of the tree. A directory is
taken for a git directory exactly if it is one (`directoryTrace_eq_found_iff`),
a trace tells of what lies there (`repositoryAt_of_found`) or that nothing does
(`not_repositoryAt_of_none`), and so the search ends at the nearest repository
(`discovers_of_search`).
-/
namespace ReleaseStamp.Git

open FileTree

variable {t : FileTree} {dir directory loc common found : Location} {text core : List Char} {path : Path} {name : String}
  {names : List String} {content : Content} {start : Path}

/-! ## Paths in files -/

theorem trimmed_iff : Trimmed text core ↔ ConfigFile.trimEnd text = core := by
  constructor
  · rintro ⟨⟨blanks, rfl, blank⟩, ends⟩
    have skip : (core ++ blanks).reverse.dropWhile ConfigFile.isBlank = core.reverse := by
      rw [List.reverse_append, List.dropWhile_append_of_pos fun c member => blank c (List.mem_reverse.mp member)]
      rcases List.eq_nil_or_concat' core with rfl | ⟨front, c, rfl⟩
      · rfl
      · rw [List.reverse_append, List.reverse_singleton, List.singleton_append,
          List.dropWhile_cons_of_neg (by simp [ends c])]
    rw [ConfigFile.trimEnd, skip, List.reverse_reverse]
  · rintro rfl
    refine ⟨⟨(text.reverse.takeWhile ConfigFile.isBlank).reverse, ?_, ?_⟩, ?_⟩
    · rw [ConfigFile.trimEnd, ← List.reverse_append, List.takeWhile_append_dropWhile, List.reverse_reverse]
    · intro c member
      exact List.mem_takeWhile_imp (List.mem_reverse.mp member)
    · intro c last
      rw [ConfigFile.trimEnd, List.getLast?_reverse] at last
      have := List.head?_dropWhile_not ConfigFile.isBlank text.reverse
      rw [last] at this
      simpa using this

theorem names_iff {file : String} : Names t dir file path ↔
    ∃ loc mode content, t.find dir ⟨file⟩ = .ok (loc, .file mode content) ∧ content.text?.isSome ∧
      pathIn content = path := by
  constructor
  · rintro ⟨text, read, trimmed⟩
    obtain ⟨loc, mode, content, found_, decoded⟩ := find_of_readText read
    refine ⟨loc, mode, content, found_, by simp [decoded], ?_⟩
    rw [pathIn, decoded]
    dsimp only
    rw [trimmed_iff.mp trimmed, String.ofList_toList]
  · rintro ⟨loc, mode, content, found_, some_, rfl⟩
    obtain ⟨text, decoded⟩ := Option.isSome_iff_exists.mp some_
    refine ⟨text, readText_of_find found_ decoded, ?_⟩
    rw [pathIn, decoded, trimmed_iff, String.toList_ofList]

theorem canonical_ne_of_nul (holds : '\x00' ∈ path.text.toList) : t.canonical dir path ≠ .ok found := by
  have unfit : unfit? path = some .pathHoldsNul := by simp [unfit?, holds]
  intro leads
  obtain ⟨node, found_, -⟩ := map_eq_ok_iff.mp leads
  have looked := (lookupSteps_eq_ok_iff.mp (find_eq_ok_iff.mp found_)).1
  simp [unfit] at looked

/-- Only bytes that are a text name a path that leads somewhere. -/
theorem isSome_of_canonical {base : Path} (leads : t.canonical dir (base.join (pathIn content)) = .ok found) :
    content.text?.isSome := by
  cases decoded : content.text? with
  | some text => rfl
  | none =>
    have holds : '\x00' ∈ (base.join (pathIn content)).text.toList := by
      rw [pathIn, decoded, Path.join]
      split_ifs <;> simp [nowhere]
    exact absurd leads (canonical_ne_of_nul holds)

/-! ## Git directories -/

theorem isFile_eq_false_iff {file : Path} : t.isFile dir file = false ↔
    ∀ loc mode content, t.find dir file ≠ .ok (loc, .file mode content) := by
  rw [← Bool.not_eq_true, isFile_iff]
  simp

theorem commonDirectory_eq_ok_iff : commonDirectory t dir = .ok common ↔ CommonDirectory t dir common := by
  rw [commonDirectory]
  split
  next loc mode content found_ =>
    rw [resolve, mapError_eq_ok_iff]
    constructor
    · intro leads
      exact .shared (names_iff.mpr ⟨loc, mode, content, found_, isSome_of_canonical leads, rfl⟩) leads
    · rintro (none_ | ⟨named, leads⟩)
      · exact (isFile_eq_false_iff.mp none_ _ _ _ found_).elim
      · obtain ⟨_, _, _, again, -, rfl⟩ := names_iff.mp named
        rw [found_] at again
        cases again
        exact leads
  next other =>
    constructor
    · intro same
      cases same
      exact .own (isFile_eq_false_iff.mpr fun loc mode content found_ => other loc mode content found_)
    · rintro (- | ⟨named, -⟩)
      · rfl
      · obtain ⟨loc, mode, content, found_, -⟩ := names_iff.mp named
        exact absurd found_ (other loc mode content)

theorem isGitDirectory_eq_true_iff : isGitDirectory t dir = .ok true ↔ GitDirectory t dir := by
  rw [isGitDirectory, bind_eq_ok_iff]
  constructor
  · rintro ⟨common, shared, holds⟩
    simp only [Except.ok.injEq, Bool.and_eq_true] at holds
    exact ⟨holds.1.1, common, commonDirectory_eq_ok_iff.mp shared, holds.1.2, holds.2⟩
  · rintro ⟨head, common, shared, objects, references⟩
    exact ⟨common, commonDirectory_eq_ok_iff.mpr shared, by simp [head, objects, references]⟩

theorem directoryTrace_eq_found_iff : directoryTrace t dir = .found loc ↔ loc = dir ∧ GitDirectory t dir := by
  rw [← isGitDirectory_eq_true_iff, directoryTrace]
  rcases isGitDirectory t dir with fault | _ | _ <;> simp [eq_comm]

theorem not_gitDirectory_of_none (nothing : directoryTrace t dir = .none) : ¬ GitDirectory t dir := by
  intro valid
  have here := directoryTrace_eq_found_iff.mpr ⟨rfl, valid⟩
  rw [nothing] at here
  contradiction

/-! ## Links -/

theorem linkText_of_linkTarget? {text : String} (some_ : linkTarget? text.toList = some path) : LinkText text path := by
  have trimmed := trimmed_iff.mpr (rfl : ConfigFile.trimEnd text.toList = _)
  rw [linkTarget?] at some_
  split_ifs at some_ with opens
  obtain ⟨⟨after, spelled⟩, longer⟩ := And.imp_left List.isPrefixOf_iff_prefix.mp opens
  have dropped : (ConfigFile.trimEnd text.toList).drop linkKey.length = after := by rw [← spelled, List.drop_left]
  rw [dropped] at some_
  cases some_
  rw [← spelled] at trimmed
  have filled : after ≠ [] := by
    rintro rfl
    simp [← spelled] at longer
  constructor
  · refine ⟨after.takeWhile ConfigFile.isBlank, ?_, fun c member => List.mem_takeWhile_imp member⟩
    change Trimmed text.toList (linkKey ++ _ ++ (String.ofList _).toList)
    rw [String.toList_ofList, List.append_assoc, List.takeWhile_append_dropWhile]
    exact trimmed
  · rw [String.toList_ofList]
    cases begins : after.dropWhile ConfigFile.isBlank with
    | nil =>
      -- The text would end in a blank.
      have blank := List.dropWhile_eq_nil_iff.mp begins _ (List.getLast_mem filled)
      have ends := trimmed.ends (after.getLast filled)
        (by rw [List.getLast?_append_of_ne_nil _ filled, List.getLast?_eq_some_getLast])
      simp [blank] at ends
    | cons c rest =>
      refine ⟨c, rest, rfl, ?_⟩
      have := List.head?_dropWhile_not ConfigFile.isBlank after
      rw [begins] at this
      simpa using this

theorem followLink_ne_none : followLink t dir content ≠ .none := by
  rw [followLink]
  split
  · simp
  · split
    · simp
    · split <;> simp_all

/-! ## Traces -/

theorem dotGit_of_followLink {mode : Nat} {at_ : Location} (linked : t.find dir dotGit = .ok (at_, .file mode content))
    (follows : followLink t dir content = .found loc) : DotGit t dir loc := by
  rw [followLink] at follows
  split at follows
  · contradiction
  next target named =>
  split at follows
  · contradiction
  next found_ leads =>
  obtain ⟨text, decoded, some_⟩ := Option.bind_eq_some_iff.mp named
  rw [resolve, mapError_eq_ok_iff] at leads
  split at follows
  · contradiction
  · obtain ⟨rfl, valid⟩ := directoryTrace_eq_found_iff.mp follows
    exact .link (readText_of_find linked decoded) (linkText_of_linkTarget? some_) leads valid

/-- What an entry `.git` that is no link leads to. -/
theorem dotGit_of_not_file (other : ∀ loc mode content, t.find dir dotGit ≠ .ok (loc, .file mode content))
    (inside : DotGit t dir loc) : t.find dir dotGit = .ok (loc, .directory) ∧ GitDirectory t loc := by
  cases inside with
  | directory found_ valid => exact ⟨found_, valid⟩
  | link read =>
    obtain ⟨_, _, _, found_, -⟩ := find_of_readText read
    exact absurd found_ (other _ _ _)

/-- A directory whose entry `.git` is no git directory tells of none but itself. -/
theorem not_dotGit_of_directory {at_ : Location} (entry : t.find dir dotGit = .ok (at_, .directory))
    (nothing : directoryTrace t at_ = .none) (loc : Location) : ¬ DotGit t dir loc := by
  intro inside
  have other : ∀ loc mode content, t.find dir dotGit ≠ .ok (loc, .file mode content) := by simp [entry]
  obtain ⟨again, valid⟩ := dotGit_of_not_file other inside
  rw [entry] at again
  cases again
  exact not_gitDirectory_of_none nothing valid

theorem repositoryAt_of_found (found_ : traceAt t dir = .found loc) : RepositoryAt t dir loc := by
  rw [traceAt] at found_
  split at found_
  next at_ entry =>
    split at found_
    next nothing =>
      obtain ⟨rfl, valid⟩ := directoryTrace_eq_found_iff.mp found_
      exact .itself valid (not_dotGit_of_directory entry nothing)
    next =>
      obtain ⟨rfl, valid⟩ := directoryTrace_eq_found_iff.mp found_
      exact .inside (.directory entry valid)
  next entry => exact .inside (dotGit_of_followLink entry found_)
  next directory other =>
    obtain ⟨rfl, valid⟩ := directoryTrace_eq_found_iff.mp found_
    refine .itself valid fun loc inside => ?_
    exact directory _ (dotGit_of_not_file other inside).1

theorem not_repositoryAt_of_none (nothing : traceAt t dir = .none) : ¬ RepositoryAt t dir loc := by
  rw [traceAt] at nothing
  split at nothing
  next at_ entry =>
    split at nothing
    next inner =>
      rintro (inside | ⟨valid, -⟩)
      · exact not_dotGit_of_directory entry inner _ inside
      · exact not_gitDirectory_of_none nothing valid
    next other => exact absurd nothing other
  next => exact absurd nothing followLink_ne_none
  next directory other =>
    rintro (inside | ⟨valid, -⟩)
    · exact directory _ (dotGit_of_not_file other inside).1
    · exact not_gitDirectory_of_none nothing valid

/-! ## The nearest repository -/

theorem orAbove_eq_ok_iff {above : Except Fault Location} {trace : Trace} :
    trace.orAbove start above = .ok directory ↔ trace = .found directory ∨ trace = .none ∧ above = .ok directory := by
  cases trace <;> simp [Trace.orAbove]

theorem repositoryAt_of_directoryAt (opened : directoryAt t dir = .ok directory) : RepositoryAt t dir directory := by
  rcases orAbove_eq_ok_iff.mp opened with here | ⟨-, above⟩
  · exact repositoryAt_of_found here
  · contradiction

theorem nearest_of_here (here : RepositoryAt t dir found) : Nearest t dir found := by
  refine ⟨dir, List.prefix_rfl, here, fun inner loc within longer => ?_⟩
  have shorter := within.length_le
  omega

theorem Nearest.below (first : Nearest t dir found) (nothing : ∀ loc, ¬ RepositoryAt t (dir ++ [name]) loc) :
    Nearest t (dir ++ [name]) found := by
  obtain ⟨around, above, here, between⟩ := first
  refine ⟨around, above.trans (List.prefix_append ..), here, fun inner loc within longer => ?_⟩
  rcases List.prefix_concat_iff.mp within with rfl | before
  · exact nothing loc
  · exact between inner loc before longer

theorem nearest_of_searchUp (search_ : searchUp t start names = .ok found) : Nearest t names.reverse found := by
  induction names with
  | nil => contradiction
  | cons name above ih =>
    rcases orAbove_eq_ok_iff.mp search_ with here | ⟨nothing, further⟩
    · exact nearest_of_here (repositoryAt_of_found here)
    · rw [List.reverse_cons] at nothing ⊢
      exact (ih further).below fun _ => not_repositoryAt_of_none nothing

theorem nearest_of_search (search_ : search t dir = .ok found) : Nearest t dir found := by
  rw [search] at search_
  split_ifs at search_
  · exact nearest_of_here (repositoryAt_of_directoryAt search_)
  · simpa using nearest_of_searchUp search_

/-- What is found and then opened belongs to the nearest repository. -/
theorem discovers_of_search (search_ : search t dir = .ok found) (opened : directoryAt t found = .ok directory) :
    Discovers t dir directory :=
  ⟨found, nearest_of_search search_, repositoryAt_of_directoryAt opened⟩

end ReleaseStamp.Git
