import ReleaseStamp.Proofs.Git.Opening

/-!
The git library that comes with the program is lawful (`LawfulLibrary builtin`):
discovery, opening and the index file by their own laws, and content filters by
what each of them leaves as it is. It has filters only where settings or
attributes ask for them (`filters_eq_nil`).
-/
namespace ReleaseStamp.Git

open FileTree

variable {t : FileTree} {cwd directory tree : Location} {r : Repository} {given : Option Path} {names : List String}
  {index old new : Index} {data : List UInt8} {shown : Path}

/-! ## Content filters -/

theorem dropReturns_eq (none_ : carriageReturn ∉ data) : dropReturns data = data := by
  induction data with
  | nil => rfl
  | cons b rest ih =>
    simp only [List.mem_cons, not_or] at none_
    rw [dropReturns, if_neg (fun both => none_.1 both.1.symm), ih none_.2]

theorem unexpand_eq (none_ : dollar ∉ data) : unexpand data = data := by
  induction data with
  | nil => rfl
  | cons b rest ih =>
    simp only [List.mem_cons, not_or] at none_
    have other : keyword.isPrefixOf (b :: rest) = false := by
      have spelled : keyword = dollar :: keyword.tail := by decide +kernel
      rw [spelled]
      simp [List.isPrefixOf, none_.1]
    rw [unexpand, other]
    simp [ih none_.2]

theorem filter_of_lineEnds {ends : LineEnds} {path : String} {filter : Filter} {data : ByteArray}
    (configured : filter ∈ ends.filters path) (none_ : carriageReturn ∉ data.data) : filter index data = data := by
  have kept : dropReturns data.data.toList = data.data.toList := dropReturns_eq (by simpa using none_)
  cases ends with
  | kept => simp [LineEnds.filters] at configured
  | guessed =>
    rw [LineEnds.filters, List.mem_singleton] at configured
    simp [configured, kept]
  | converted =>
    rw [LineEnds.filters, List.mem_singleton] at configured
    simp [configured, kept]

theorem keywordFilter_eq {data : ByteArray} (none_ : dollar ∉ data.data) : keywordFilter index data = data := by
  have kept : unexpand data.data.toList = data.data.toList := unexpand_eq (by simpa using none_)
  simp [keywordFilter, kept]

theorem filter_of_filtersFor {filters : List Filter} {filter : Filter} {data : ByteArray}
    (chosen : filtersFor t directory tree names = .ok filters) (configured : filter ∈ filters)
    (kept : ∀ b ∈ data.data, ¬ Filterable b) : filter index data = data := by
  rw [filtersFor] at chosen
  obtain ⟨settings, -, chosen⟩ := bind_eq_ok_iff.mp chosen
  obtain ⟨common, -, chosen⟩ := bind_eq_ok_iff.mp chosen
  obtain ⟨setting, -, chosen⟩ := bind_eq_ok_iff.mp chosen
  cases chosen
  rcases List.mem_append.mp configured with ends | keywords
  · exact filter_of_lineEnds ends fun member => kept _ member (.inl rfl)
  · split_ifs at keywords
    · rw [List.mem_singleton.mp keywords]
      exact keywordFilter_eq fun member => kept _ member (.inr rfl)
    · simp at keywords

/-! ## Adding -/

theorem addPath_eq_ok (added : r.addPath t cwd given old names = .ok new) :
    ∃ shown tree entry, r.workTree = some shown ∧ t.canonical cwd shown = .ok tree ∧
      entryOf t r.directory tree given old names = .ok entry ∧ new = old.add entry := by
  rw [Repository.addPath] at added
  split at added
  · contradiction
  next shown tree_ =>
    obtain ⟨tree, resolved, added⟩ := bind_eq_ok_iff.mp added
    obtain ⟨entry, made, added⟩ := bind_eq_ok_iff.mp added
    rw [resolve, mapError_eq_ok_iff] at resolved
    cases added
    exact ⟨shown, tree, entry, tree_, resolved, made, rfl⟩

theorem names_ne_nil_of_entryOf {entry : StagedEntry} (made : entryOf t directory tree given old names = .ok entry) :
    names ≠ [] := by
  rintro rfl
  simp [entryOf] at made

theorem samePath_of_entryPath {path : String} (spelled : entryPath t directory given old names = .ok path) :
    Index.SamePath ((foldsCase t directory given).toOption.getD false) path ("/".intercalate names) := by
  rw [entryPath] at spelled
  obtain ⟨folds, asked, spelled⟩ := bind_eq_ok_iff.mp spelled
  rw [asked]
  cases spelled
  cases folds with
  | false => rfl
  | true => exact Index.samePath_respell old _

/-- Names that differ in case count as one only where a setting has it so. -/
theorem set_of_foldsCase (folds : (foldsCase t directory given).toOption.getD false = true) :
    given = none ∧ ∃ value, Builtin.setting? t directory "core.ignorecase" = some value ∧ ¬ Denies value := by
  cases asked : foldsCase t directory given with
  | error fault => simp [asked, Except.toOption] at folds
  | ok answer =>
    obtain rfl : answer = true := by simpa [asked, Except.toOption] using folds
    cases given with
    | some file => contradiction
    | none =>
      obtain ⟨settings, read, set_⟩ := bind_eq_ok_iff.mp asked
      rw [isSet] at set_
      split at set_
      next setting last =>
        refine ⟨rfl, _, ?_, not_denies_of_truth set_⟩
        rw [setting?_eq read, last, Option.map_some]
      next => contradiction

theorem entryOf_eq_ok {entry : StagedEntry} {mode : Nat} {content : Content}
    (made : entryOf t directory tree given old names = .ok entry)
    (here : t.get? (tree ++ names) = some (.file mode content)) :
    ∃ filters path, filtersFor t directory tree names = .ok filters ∧
      Index.SamePath ((foldsCase t directory given).toOption.getD false) path ("/".intercalate names) ∧
      entry = ⟨path, isExecutable mode, .bytes (filtered filters old content.raw)⟩ := by
  rw [entryOf] at made
  split_ifs at made
  simp only [here] at made
  obtain ⟨filters, chosen, made⟩ := bind_eq_ok_iff.mp made
  obtain ⟨path, spelled, made⟩ := bind_eq_ok_iff.mp made
  cases made
  exact ⟨filters, path, chosen, samePath_of_entryPath spelled, rfl⟩

/-! ## The library -/

theorem filters?_eq_some_iff {filters : List Filter} : Builtin.filters? t cwd r names = some filters ↔
    ∃ shown tree, r.workTree = some shown ∧ t.canonical cwd shown = .ok tree ∧
      filtersFor t r.directory tree names = .ok filters := by
  simp only [Builtin.filters?, Option.bind_eq_bind, Option.bind_eq_some_iff, toOption_eq_some_iff]
  constructor
  · rintro ⟨shown, tree_, tree, leads, chosen⟩
    exact ⟨shown, tree, tree_, leads, chosen⟩
  · rintro ⟨shown, tree, tree_, leads, chosen⟩
    exact ⟨shown, tree_, tree, leads, chosen⟩

theorem filter_of_builtin {filter : Filter} {data : ByteArray} (configured : filter ∈ Library.filters t cwd r names)
    (kept : ∀ b ∈ data.data, ¬ Filterable b) : filter index data = data := by
  change filter ∈ (Builtin.filters? t cwd r names).getD [] at configured
  cases chosen : Builtin.filters? t cwd r names with
  | none => simp [chosen] at configured
  | some filters =>
    obtain ⟨_, tree, -, -, chosen_⟩ := filters?_eq_some_iff.mp chosen
    rw [chosen] at configured
    exact filter_of_filtersFor chosen_ configured kept

/-- No filter is configured for a file if neither the setting nor any file of
    attributes is there. -/
theorem filters_eq_nil (unset : Library.setting? t r.directory "core.autocrlf" = none)
    (alone : ∀ common shown tree, CommonDirectory t r.directory common → r.workTree = some shown →
      t.canonical cwd shown = .ok tree → ∀ file ∈ attributeFiles common tree names, t.isFile file.1 file.2.1 = false) :
    Library.filters t cwd r names = [] := by
  change (Builtin.filters? t cwd r names).getD [] = []
  cases asked : Builtin.filters? t cwd r names with
  | none => rfl
  | some filters =>
    obtain ⟨shown, tree, tree_, leads, chosen⟩ := filters?_eq_some_iff.mp asked
    rw [filtersFor] at chosen
    obtain ⟨settings, read, chosen⟩ := bind_eq_ok_iff.mp chosen
    obtain ⟨common, shared, chosen⟩ := bind_eq_ok_iff.mp chosen
    obtain ⟨setting, converts, chosen⟩ := bind_eq_ok_iff.mp chosen
    have none_ : ConfigFile.last? settings "core.autocrlf" = none :=
      Option.map_eq_none_iff.mp ((setting?_eq read).symm.trans unset)
    simp only [convertsEnds, none_] at converts
    cases converts
    cases chosen
    have unspecified (name : String) : attributeOf t common tree names name = .unspecified := by
      rw [attributeOf, List.findSome?_eq_none_iff.mpr, Option.getD_none]
      rintro ⟨dir, file, seen⟩ listed
      have nothing := isFile_eq_false_iff.mp
        (alone common shown tree (commonDirectory_eq_ok_iff.mp shared) tree_ leads _ listed)
      dsimp only
      split
      next found_ => exact absurd found_ (nothing _ _ _)
      next => rfl
    simp [lineEndsOf, unspecified, LineEnds.ofState, LineEnds.filters]

theorem open_of_discover {dir : Location} (discovered : Repository.discover t dir = .ok r) :
    Discovers t dir r.directory ∧ Repository.ofDirectory t r.directory = .ok r := by
  rw [Repository.discover] at discovered
  obtain ⟨found, search_, opened⟩ := bind_eq_ok_iff.mp discovered
  rw [Repository.openAt] at opened
  obtain ⟨directory, tells, opened⟩ := bind_eq_ok_iff.mp opened
  obtain rfl := directory_of_ofDirectory opened
  exact ⟨discovers_of_search search_ tells, opened⟩

instance : LawfulLibrary where
  discovers discovered := (open_of_discover discovered).1
  notBare discovered := not_bare_of_ofDirectory (open_of_discover discovered).2
  workTree discovered := workTreePath_of_ofDirectory (open_of_discover discovered).2
  setting := setting?_of_plain
  filter := filter_of_builtin
  folds := set_of_foldsCase
  read := Index.held_of_read
  inside added := by
    obtain ⟨_, _, entry, -, -, made, -⟩ := addPath_eq_ok added
    exact names_ne_nil_of_entryOf made
  add added tree_ leads here := by
    obtain ⟨_, _, entry, again, resolved, made, rfl⟩ := addPath_eq_ok added
    cases tree_.symm.trans again
    cases leads.symm.trans resolved
    obtain ⟨filters, path, chosen, spelled, rfl⟩ := entryOf_eq_ok made here
    have same : Library.filters _ _ _ _ = filters :=
      congrArg (·.getD []) (filters?_eq_some_iff.mpr ⟨_, _, tree_, leads, chosen⟩)
    rw [same]
    exact ⟨path, _, spelled, takes_add _ _ _⟩
  write written := by
    obtain ⟨place, leads, rfl⟩ := Index.leadsTo_of_write written
    exact ⟨place, _, leads, rfl⟩

end ReleaseStamp.Git
