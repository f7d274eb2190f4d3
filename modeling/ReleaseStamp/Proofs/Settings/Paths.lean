import ReleaseStamp.Proofs.Files.Bases
import ReleaseStamp.Proofs.Settings

/-!
What the settings mean. A path of the config file is anchored to the text of the
path of that file, and leads to what it leads to from the directory of the file,
whatever the working directory is (`sameFile_anchor`). What the options give is
used as it is (`resolve_means`).
-/
namespace ReleaseStamp.Settings

open FileTree

variable {t : FileTree} {cwd dir : Location} {o : Overrides} {given base : Option Path} {config : Config} {s : Settings}

/-- The directory that the paths of a config start from: the one in which the last
    component of its path was looked up, or the working directory if none is given. -/
inductive ConfigDirectory (t : FileTree) (cwd : Location) : Option Path → Location → Prop where
  | given {path : Path} {dir : Location} {name : String} : t.entry? cwd path = .ok (some (dir ++ [name])) →
      ConfigDirectory t cwd (some path) dir
  | usual : ConfigDirectory t cwd none cwd

/-- The path that a run writes to. -/
inductive Writes (t : FileTree) (cwd dir : Location) (o : Overrides) (config : Config) (lockfile : Path) : Path → Prop where
  | override {path : Path} : o.output = some path → Writes t cwd dir o config lockfile path
  | alternate : o.output = none → o.alternate = true →
      Writes t cwd dir o config lockfile ⟨"modified_dependencies.toml"⟩
  | config {r path : Path} : o.output = none → o.alternate = false → config.output = some r →
      (r.isEmpty = false → t.SameFile cwd path dir r) → Writes t cwd dir o config lockfile path
  | inPlace : o.output = none → o.alternate = false → config.output = none →
      Writes t cwd dir o config lockfile lockfile

/-- What settings mean that come from the options and from a config, whose paths
    start from a directory. -/
structure Means (t : FileTree) (cwd dir : Location) (o : Overrides) (config : Config) (s : Settings) : Prop where
  package : s.package = (o.package.or config.package).getD "ram-machine"
  override : ∀ path, o.lockfile = some path → s.lockfile = path
  lockfile : o.lockfile = none → ∀ r, r = config.lockfile.getD ⟨"./Cargo.lock"⟩ → r.isEmpty = false →
    t.SameFile cwd s.lockfile dir r
  output : Writes t cwd dir o config s.lockfile s.patcher.outputPath
  inPlace : s.output = .inPlace ↔ o.output = none ∧ o.alternate = false ∧ config.output = none
  missing : s.missing = .fail ↔ o.strict = true ∨ config.strict = true
  stage : s.stage = true ↔ o.stage = true ∨ config.stage = true

/-! ## Anchored paths -/

/-- The base of a config file that can be read stands for the directory of the file. -/
theorem sameFile_anchor (closed : t.Closed) (chosen : Chosen cwd t given config base) :
    ∃ dir, ConfigDirectory t cwd given dir ∧ ∀ r, r.isEmpty = false → t.SameFile cwd (anchor base r) dir r := by
  cases chosen with
  | @given path config loaded =>
    rw [Config.load] at loaded
    split at loaded
    · contradiction
    next text read =>
      obtain ⟨loc, mode, content, found_, -⟩ := find_of_readText read
      obtain ⟨base, dir, name, parent, named, none_ | directory⟩ := directory_of_find found_
      · obtain ⟨empty, rfl⟩ := none_
        have bare : baseOf path = none := by simp [baseOf, parent, empty]
        exact ⟨dir, .given named, fun r _ => bare ▸ .refl⟩
      · have based : baseOf path = some base := by
          have some_ := isEmpty_of_unfit? (lookupSteps_eq_ok_iff.mp (find_eq_ok_iff.mp directory)).1
          simp [baseOf, parent, some_]
        exact ⟨dir, .given named, fun r filled => based ▸ sameFile_join closed directory filled⟩
  | usual | absent => exact ⟨cwd, .usual, fun _ _ => .refl⟩

/-! ## Merged settings -/

theorem writes_outputOf (anchored : ∀ r, r.isEmpty = false → t.SameFile cwd (anchor base r) dir r) (lockfile : Path)
    (package : String) (missing : Missing) :
    Writes t cwd dir o config lockfile (Patcher.mk lockfile package (outputOf config base o) missing).outputPath := by
  rw [Patcher.outputPath, outputOf]
  cases override : o.output with
  | some path => exact .override override
  | none =>
    cases alternate : o.alternate with
    | true => exact .alternate override alternate
    | false =>
      cases output : config.output with
      | some r => exact .config override alternate output (anchored r)
      | none => exact .inPlace override alternate output

theorem outputOf_eq_inPlace_iff :
    outputOf config base o = .inPlace ↔ o.output = none ∧ o.alternate = false ∧ config.output = none := by
  rw [outputOf]
  cases o.output with
  | some path => simp
  | none =>
    cases o.alternate with
    | true => simp
    | false => cases config.output <;> simp

theorem merge_means (anchored : ∀ r, r.isEmpty = false → t.SameFile cwd (anchor base r) dir r) (o : Overrides)
    (config : Config) : Means t cwd dir o config (merge config base o) where
  package := rfl
  override path given := by simp [merge, given]
  lockfile none_ r default filled := by
    subst default
    rw [merge, none_]
    exact anchored _ filled
  output := writes_outputOf anchored _ _ _
  inPlace := outputOf_eq_inPlace_iff
  missing := by cases strict : o.strict <;> simp [merge, strict]
  stage := by simp [merge]

/-! ## Resolved settings -/

/-- The paths that a config gives, and the default lockfile, lead from the working
    directory to what they lead to from the directory of the config; the options
    win over them, and are used as they are. -/
theorem resolve_means (closed : t.Closed) (resolved : resolve cwd o t = .ok s) :
    ∃ config base dir, Chosen cwd t o.config config base ∧ ConfigDirectory t cwd o.config dir ∧
      Means t cwd dir o config s := by
  obtain ⟨config, base, chosen, rfl⟩ := resolve_eq_ok_iff.mp resolved
  obtain ⟨dir, directory, anchored⟩ := sameFile_anchor closed chosen
  exact ⟨config, base, dir, chosen, directory, merge_means anchored o config⟩

/-- A config file that names the lockfile above its directory, and a link to that directory. -/
def linkedConfig : FileTree :=
  ((((FileTree.empty.put ["real"] .directory).put ["real", "conf"] .directory).put ["real", "conf", "lockstamp.toml"]
    (.file 0o644 (.ofText "lockfile = \"../Cargo.lock\"\n"))).put ["link"] (.link ⟨"real/conf"⟩)).put ["work"] .directory

/-- The path of that file through the link, with a double slash and a dot. -/
def linkedPath : Path := ⟨"../link//./lockstamp.toml"⟩

theorem resolve_means_linkedConfig :
    ∃ s, resolve ["work"] { config := some linkedPath } linkedConfig = .ok s ∧
      s.lockfile = ⟨"../link/../Cargo.lock"⟩ ∧ linkedConfig.SameFile ["work"] s.lockfile ["real", "conf"] ⟨"../Cargo.lock"⟩ := by
  have entry : linkedConfig.entry? ["work"] linkedPath = .ok (some (["real", "conf"] ++ ["lockstamp.toml"])) := by
    decide +kernel
  have looked := lookup_of_entry? entry (by decide) (.file rfl) false
  have read : linkedConfig.readText ["work"] linkedPath = .ok "lockfile = \"../Cargo.lock\"\n" :=
    readText_of_find (find_eq_ok_iff.mpr looked) (Content.text?_ofText _)
  have loaded : Config.load ["work"] linkedPath linkedConfig = .ok { lockfile := some ⟨"../Cargo.lock"⟩ } := by
    rw [Config.load, read]
    exact toOption_eq_some_iff.mp (by decide +kernel)
  have resolved : resolve ["work"] { config := some linkedPath } linkedConfig = .ok _ :=
    resolve_eq_ok_iff.mpr ⟨_, _, .given loaded, rfl⟩
  obtain ⟨config, base, dir, chosen, directory, means⟩ := resolve_means (by decide) resolved
  refine ⟨_, resolved, by decide +kernel, ?_⟩
  cases directory with
  | given named =>
    rw [entry, Except.ok.injEq, Option.some.injEq] at named
    obtain ⟨rfl, -⟩ := List.append_inj' named rfl
    cases chosen with
    | given again =>
      rw [loaded] at again
      cases again
      exact means.lockfile rfl _ rfl (by decide)

end ReleaseStamp.Settings
