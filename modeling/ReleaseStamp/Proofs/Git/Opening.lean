import ReleaseStamp.Git.Builtin
import ReleaseStamp.Proofs.Git.Discovery
import ReleaseStamp.Proofs.Git.Library

/-!
Opening a repository against its files: the settings in a plain config file are
those that are read (`settingsOf_plain`), a work tree belongs to a repository
that is not bare (`not_bare_of_ofDirectory`), and it lies where the git
directory has it (`workTreePath_of_ofDirectory`).
-/
namespace ReleaseStamp.Git

open FileTree

variable {t : FileTree} {dir directory common cwd tree : Location} {r : Repository} {shown file : Path}
  {settings : List Setting} {name : String} {value : Option String} {depth : Nat}

/-! ## Settings -/

theorem textOf_of_text? {content : Content} {text : String} (decoded : content.text? = some text) :
    textOf content = text.toList := by
  rw [textOf, decoded]

/-- Settings that include nothing are all that is read. -/
theorem settingsIn_plain {text : String} (read : t.readText dir file = .ok text)
    (parsed : ConfigFile.parse (dir.directoryPath.join file) text.toList = .ok settings)
    (plain : ∀ setting ∈ settings, setting.include? = none) : settingsIn t dir (depth + 1) file = .ok settings := by
  obtain ⟨loc, mode, content, found_, decoded⟩ := find_of_readText read
  simp only [settingsIn, found_, textOf_of_text? decoded, parsed]
  refine bind_eq_ok_iff.mpr ⟨settings, rfl, bind_eq_ok_iff.mpr ⟨settings.map fun setting => [setting], ?_, ?_⟩⟩
  · exact mapM_eq_pure fun setting member => by rw [plain setting member]; rfl
  · simp [← List.flatMap_def]

theorem settingsIn_of_isFile (nothing : t.isFile dir file = false) : settingsIn t dir (depth + 1) file = .ok [] := by
  have other := isFile_eq_false_iff.mp nothing
  rw [settingsIn]
  split
  next found_ => exact (other _ _ _ found_).elim
  · rfl

theorem include?_of_plain {s : ConfigFile.Section} (plain : s.Plain) (other : s.name ∉ ["include", "includeif"]) :
    ∀ setting ∈ s.settings, setting.include? = none := by
  intro setting member
  obtain ⟨⟨key, value⟩, -, rfl⟩ := List.mem_map.mp member
  rw [Setting.include?, if_neg]
  intro same
  -- The name of a section holds no dot, so that the sections are the same.
  have front := congrArg (List.takeWhile (· != '.')) same
  have undotted : ∀ c ∈ s.name.toList, (c != '.') = true := fun c named => by
    simpa using ConfigFile.ne_of_isKeyChar (plain.name.key c named) (show ConfigFile.isKeyChar '.' = false by decide)
  rw [List.takeWhile_append_of_pos undotted, List.takeWhile_cons_of_neg (by simp), List.append_nil] at front
  have section_ : s.name = "include" := String.toList_inj.mp (front.trans (by decide))
  exact other (by simp [section_])

/-- What a plain config file sets is what is read. -/
theorem settingsOf_plain {sections : List ConfigFile.Section} (config : PlainConfig t directory sections) :
    settingsOf t directory = .ok (sections.flatMap ConfigFile.Section.settings) := by
  obtain ⟨⟨common, shared, read⟩, plain, alone⟩ := config
  have parsed := ConfigFile.parse_render (common.directoryPath.join ⟨"config"⟩) fun s listed => (plain s listed).1
  have own : ∀ setting ∈ sections.flatMap ConfigFile.Section.settings, setting.include? = none := by
    intro setting member
    obtain ⟨s, listed, inside⟩ := List.mem_flatMap.mp member
    exact include?_of_plain (plain s listed).1 (plain s listed).2 setting inside
  rw [settingsOf, commonDirectory_eq_ok_iff.mpr shared]
  change (settingsIn t common includeLimit ⟨"config"⟩ >>= fun shared =>
    settingsIn t directory includeLimit ⟨"config.worktree"⟩ >>= fun own => Except.ok (shared ++ own)) = _
  rw [includeLimit, settingsIn_plain read parsed own, settingsIn_of_isFile alone]
  exact congrArg Except.ok (List.append_nil _)

theorem setting?_of_plain {sections : List ConfigFile.Section} {value : String} (config : PlainConfig t directory sections)
    (sets : ConfigFile.Sets sections name value) : Builtin.setting? t directory name = some (some value) := by
  simp [Builtin.setting?, settingsOf_plain config, Except.toOption, ConfigFile.last?_of_sets sets]

/-! ## What settings mean -/

/-- What a setting of an opened repository told is what was read. -/
theorem setting?_eq (read : settingsOf t directory = .ok settings) :
    Builtin.setting? t directory name =
      (ConfigFile.last? settings name).map fun setting => setting.value.map String.ofList := by
  rw [Builtin.setting?, read]
  change ((ConfigFile.last? settings name).bind fun setting => some (setting.value.map String.ofList)) = _
  exact Option.map_eq_bind.symm

theorem truth_of_affirms {value : Option (List Char)} (affirms : Affirms (value.map String.ofList)) :
    ConfigFile.truth value = .ok true := by
  cases value with
  | none => rfl
  | some word =>
    refine (affirms _ rfl).elim (fun one => ?_) fun listed => ?_
    · rw [show word = "1".toList from String.ofList_injective one]
      decide
    · have spelled : (String.ofList word).toList = word := String.toList_ofList
      rw [spelled] at listed
      rw [ConfigFile.truth, if_pos listed]

theorem not_denies_of_truth {value : Option (List Char)} (true_ : ConfigFile.truth value = .ok true) :
    ¬ Denies (value.map String.ofList) := by
  rintro ⟨word, same, denied⟩
  obtain ⟨cs, rfl, rfl⟩ := Option.map_eq_some_iff.mp same
  have spelled : (String.ofList cs).toList = cs := String.toList_ofList
  rw [spelled] at denied
  rcases denied with zero | listed
  · rw [show cs = "0".toList from String.ofList_injective zero] at true_
    exact absurd true_ (by decide +kernel)
  · have other : ConfigFile.lower cs ∉ ["true".toList, "yes".toList, "on".toList] := by
      simp only [List.mem_cons, List.not_mem_nil, or_false] at listed
      rcases listed with word | word | word | word <;> rw [word] <;> decide
    rw [ConfigFile.truth, if_neg other, if_pos listed] at true_
    contradiction

/-! ## Opening -/

theorem isFile_of_linkedWorkTree? (none_ : linkedWorkTree? t directory = none) :
    t.isFile directory ⟨"gitdir"⟩ = false := by
  refine isFile_eq_false_iff.mpr fun loc mode content found_ => ?_
  simp only [linkedWorkTree?, found_] at none_
  split_ifs at none_

theorem linkedWorkTree?_of_isFile (nothing : t.isFile directory ⟨"gitdir"⟩ = false) :
    linkedWorkTree? t directory = none := by
  rw [linkedWorkTree?]
  split
  next found_ => exact (isFile_eq_false_iff.mp nothing _ _ _ found_).elim
  · rfl

/-- How a repository with a work tree is opened. -/
inductive Opens (t : FileTree) (directory : Location) (settings : List Setting) : Path → Prop where
  | linked {shown : Path} : linkedWorkTree? t directory = some shown → Opens t directory settings shown
  | moved {setting : Setting} {value : List Char} {loc : Location} : linkedWorkTree? t directory = none →
      isSet settings "core.bare" = .ok false → ConfigFile.last? settings "core.worktree" = some setting →
      setting.value = some value → t.canonical directory (directory.directoryPath.join ⟨String.ofList value⟩) = .ok loc →
      Opens t directory settings loc.directoryPath
  | around : linkedWorkTree? t directory = none → isSet settings "core.bare" = .ok false →
      (ConfigFile.last? settings "core.worktree").bind (·.value) = none →
      Opens t directory settings (Location.directoryPath directory.dropLast)

theorem directory_of_ofDirectory (opened : Repository.ofDirectory t directory = .ok r) : r.directory = directory := by
  simp only [Repository.ofDirectory, bind, Except.bind] at opened
  repeat' split at opened
  all_goals first
    | contradiction
    | cases opened
      rfl

theorem opens_of_ofDirectory (opened : Repository.ofDirectory t directory = .ok r) (tree_ : r.workTree = some shown) :
    ∃ settings, settingsOf t directory = .ok settings ∧ Opens t directory settings shown := by
  rw [Repository.ofDirectory] at opened
  obtain ⟨settings, read, opened⟩ := bind_eq_ok_iff.mp opened
  refine ⟨settings, read, ?_⟩
  split at opened
  · contradiction
  obtain ⟨bare, set_, opened⟩ := bind_eq_ok_iff.mp opened
  split at opened
  next workTree linked =>
    cases opened
    cases tree_
    exact .linked linked
  next linked =>
    split_ifs at opened with isBare
    · cases opened
      contradiction
    · rw [Bool.not_eq_true] at isBare
      subst isBare
      split at opened
      next value moved =>
        obtain ⟨setting, last, value_⟩ := Option.bind_eq_some_iff.mp moved
        obtain ⟨loc, leads, opened⟩ := bind_eq_ok_iff.mp opened
        rw [resolve, mapError_eq_ok_iff] at leads
        cases opened
        cases tree_
        exact .moved linked set_ last value_ leads
      next unmoved =>
        cases opened
        cases tree_
        exact .around linked set_ unmoved

/-! ## The work tree -/

theorem not_bare_of_isSet (read : settingsOf t directory = .ok settings) (unset : isSet settings "core.bare" = .ok false) :
    ¬ @Bare t builtin directory := by
  rintro ⟨-, value, told, affirms⟩
  change Builtin.setting? t directory "core.bare" = some value at told
  rw [setting?_eq read] at told
  obtain ⟨setting, last, rfl⟩ := Option.map_eq_some_iff.mp told
  simp only [isSet, last, truth_of_affirms affirms] at unset
  contradiction

theorem not_bare_of_ofDirectory (opened : Repository.ofDirectory t directory = .ok r) (tree_ : r.workTree = some shown) :
    ¬ Bare t directory := by
  obtain ⟨settings, read, opens⟩ := opens_of_ofDirectory opened tree_
  cases opens with
  | linked linked =>
    rintro ⟨nothing, -⟩
    rw [linkedWorkTree?_of_isFile nothing] at linked
    contradiction
  | moved _ unset => exact not_bare_of_isSet read unset
  | around _ unset => exact not_bare_of_isSet read unset

theorem isAbsolute_directoryPath (loc : Location) : (Location.directoryPath loc).isAbsolute = true := by
  have grows : ∀ text : String, (loc.foldl (fun text name => text ++ name ++ "/") text).toList =
      text.toList ++ (loc.foldl (fun text name => text ++ name ++ "/") "").toList := by
    induction loc with
    | nil => simp
    | cons name later ih =>
      intro text
      rw [List.foldl_cons, List.foldl_cons, ih (text ++ name ++ "/"), ih ("" ++ name ++ "/")]
      simp
  rw [Location.directoryPath, Path.isAbsolute, grows]
  rfl

theorem isAbsolute_join {base : Path} (absolute : base.isAbsolute = true) (p : Path) : (base.join p).isAbsolute = true := by
  cases itself : p.isAbsolute with
  | true => simp [Path.join, itself]
  | false =>
    have some_ : base.isEmpty = false := by
      rw [Path.isAbsolute, beq_iff_eq] at absolute
      rw [Path.isEmpty, List.isEmpty_eq_false_iff]
      rintro none_
      simp [none_] at absolute
    exact (Path.moves_join some_ itself).2.trans absolute

theorem head_of_dropWhile {kind : Char → Bool} {cs rest : List Char} {c : Char} (dropped : cs.dropWhile kind = c :: rest) :
    kind c = false := by
  have := List.head?_dropWhile_not kind cs
  rw [dropped] at this
  simpa using this

/-! ### The directory around a path -/

theorem reverse_cut (kind : Char → Bool) (cs : List Char) :
    cs.reverse = (cs.dropWhile kind).reverse ++ (cs.takeWhile kind).reverse := by
  rw [← List.reverse_append, List.takeWhile_append_dropWhile]

theorem eq_of_mem_slashes {cs : List Char} : ∀ c ∈ (cs.takeWhile (· == '/')).reverse, c = '/' := fun c member => by
  simpa using List.mem_takeWhile_imp (List.mem_reverse.mp member)

theorem slash_notMem_name (cs : List Char) : '/' ∉ (cs.takeWhile (· != '/')).reverse := fun member => by
  simpa using List.mem_takeWhile_imp (List.mem_reverse.mp member)

/-- What follows a run that was dropped begins with no slash, unless a run of
    slashes follows. -/
theorem eq_nil_of_no_slashes {cs : List Char} (slashes : (cs.dropWhile (· != '/')).takeWhile (· == '/') = []) :
    cs.dropWhile (· != '/') = [] := by
  cases same : cs.dropWhile (· != '/') with
  | nil => rfl
  | cons c later =>
    have slash : c = '/' := by simpa using head_of_dropWhile same
    simp [same, slash] at slashes

/-- A text that begins with a slash has no name in front of all others. -/
theorem eq_nil_of_begins {name ending : List Char} (begins : (name ++ ending).head? = some '/') (unslashed : '/' ∉ name) :
    name = [] := by
  cases name with
  | nil => rfl
  | cons c later =>
    obtain rfl : c = '/' := by simpa using begins
    simp at unslashed

/-- The directory around a path is spelled by what stands before its last name. -/
theorem around_around {p : Path} (absolute : p.isAbsolute = true) : Around p (around p) := by
  rw [Path.isAbsolute, beq_iff_eq] at absolute
  -- The text is cut from its end: slashes, a name, slashes, and the rest.
  set named := p.text.toList.reverse.dropWhile (· == '/') with namedIs
  set before := named.dropWhile (· != '/') with beforeIs
  have whole : p.text.toList = (before.dropWhile (· == '/')).reverse ++ (before.takeWhile (· == '/')).reverse ++
      (named.takeWhile (· != '/')).reverse ++ (p.text.toList.reverse.takeWhile (· == '/')).reverse := by
    rw [← reverse_cut, ← reverse_cut, ← reverse_cut, List.reverse_reverse]
  have spelled : (around p).text.toList = (before.dropWhile (· == '/')).reverse ++ ['/'] := by
    rw [around, String.toList_ofList]
  cases slashes : before.takeWhile (· == '/') with
  | nil =>
    -- No slash is left before the name, so that there is no name: the text is all slashes.
    have nothing : before = [] := eq_nil_of_no_slashes slashes
    simp only [nothing, List.dropWhile_nil, List.takeWhile_nil, List.reverse_nil, List.nil_append] at whole spelled
    have unnamed : (named.takeWhile (· != '/')).reverse = [] :=
      eq_nil_of_begins (whole ▸ absolute) (slash_notMem_name named)
    rw [unnamed, List.nil_append] at whole
    refine ⟨[], p.text.toList, [], [], by simp, spelled, ⟨fun none_ => ?_, fun c member => ?_⟩, by simp, fun _ => rfl⟩
    · simp [none_] at absolute
    · rw [List.append_nil, whole] at member
      exact eq_of_mem_slashes c member
  | cons c later =>
    rw [slashes] at whole
    refine ⟨_, _, _, _, whole, spelled, ⟨by simp, fun d member => ?_⟩, slash_notMem_name named, fun unnamed => ?_⟩
    · rw [← slashes] at member
      exact (List.mem_append.mp member).elim (eq_of_mem_slashes d) (eq_of_mem_slashes d)
    · -- Without a name the slashes before it would have been taken with those behind it.
      cases same : named with
      | nil => simp [beforeIs, same] at slashes
      | cons d more =>
        have other : d ≠ '/' := by simpa using head_of_dropWhile same
        rw [same, List.takeWhile_cons_of_pos (by simpa using other)] at unnamed
        simp at unnamed

theorem workTreePath_of_ofDirectory (opened : Repository.ofDirectory t directory = .ok r) (tree_ : r.workTree = some shown)
    (leads : t.canonical cwd shown = .ok tree) : WorkTreePath t directory shown := by
  obtain ⟨settings, read, opens⟩ := opens_of_ofDirectory opened tree_
  cases opens with
  | linked linked =>
    rw [linkedWorkTree?] at linked
    split at linked
    next found_ =>
      split_ifs at linked with lost
      · obtain rfl := Option.some.inj linked
        exact absurd leads (canonical_ne_of_nul (by simp [nowhere]))
      · obtain rfl := Option.some.inj linked
        have decoded {content : Content} (named : pathIn content ≠ nowhere) : content.text?.isSome :=
          Option.isSome_iff_ne_none.mpr fun none_ => named (by rw [pathIn, none_])
        exact .linked (names_iff.mpr ⟨_, _, _, found_, decoded lost, rfl⟩)
          (around_around (isAbsolute_join (isAbsolute_directoryPath directory) _))
    · contradiction
  | moved linked unset last value_ found_ =>
    refine .moved (isFile_of_linkedWorkTree? linked) ?_ found_
    exact (setting?_eq read).trans (by simp [last, value_])
  | around linked unset unmoved =>
    refine .around (isFile_of_linkedWorkTree? linked) fun value told => ?_
    have told := (setting?_eq read).symm.trans told
    obtain ⟨setting, last, value_⟩ := Option.map_eq_some_iff.mp told
    simp [last] at unmoved
    simp [unmoved] at value_

end ReleaseStamp.Git
