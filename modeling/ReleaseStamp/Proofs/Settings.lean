import ReleaseStamp.Proofs.Files.Lookups
import ReleaseStamp.Settings

/-!
Settings resolved again after files have changed. Of all files only the config
file in use matters (`Settings.resolve_eq_ok_iff`), and other options that name
the same one see the same config in it (`Overrides.AsksFor.resolve`).
-/
namespace ReleaseStamp

open FileTree

variable {cwd : Location} {p : Path} {t t' : FileTree} {o shown : Overrides} {s : Settings}

/-! ## The config in use -/

theorem Config.load_reread {config : Config} (loaded : Config.load cwd p t = .ok config) (same : FindsSame t t' cwd p) :
    Config.load cwd p t' = .ok config := by
  rw [Config.load] at loaded
  split at loaded
  · contradiction
  next text read =>
    obtain ⟨loc, mode, content, found_, decoded⟩ := find_of_readText read
    rw [Config.load, readText_of_find ((same _ _ _).mpr found_) decoded]
    exact loaded

/-- The config of a run, with the base of its paths: it is in the file that is
    given, or in the default one if that is there. -/
inductive Settings.Chosen (cwd : Location) (t : FileTree) : Option Path → Config → Option Path → Prop where
  | given {path : Path} {config : Config} : Config.load cwd path t = .ok config →
      Chosen cwd t (some path) config (Settings.baseOf path)
  | usual {config : Config} : t.isFile cwd Settings.defaultConfig = true →
      Config.load cwd Settings.defaultConfig t = .ok config → Chosen cwd t none config none
  | absent : t.isFile cwd Settings.defaultConfig = false → Chosen cwd t none {} none

theorem Settings.resolve_eq_ok_iff : Settings.resolve cwd o t = .ok s ↔
    ∃ config base, Settings.Chosen cwd t o.config config base ∧ s = Settings.merge config base o := by
  rw [Settings.resolve]
  constructor
  · intro resolved
    cases given : o.config with
    | some path =>
      simp only [given] at resolved
      obtain ⟨config, loaded, rfl⟩ := map_eq_ok_iff.mp resolved
      exact ⟨config, _, .given loaded, rfl⟩
    | none =>
      simp only [given] at resolved
      split at resolved
      next here =>
        obtain ⟨config, loaded, rfl⟩ := map_eq_ok_iff.mp resolved
        exact ⟨config, none, .usual here loaded, rfl⟩
      next missing =>
        cases resolved
        exact ⟨_, none, .absent (Bool.eq_false_iff.mpr missing), rfl⟩
  · rintro ⟨config, base, chosen, rfl⟩
    generalize o.config = given at chosen
    cases chosen with
    | given loaded => simp [loaded, Except.map]
    | usual here loaded => simp [here, loaded, Except.map]
    | absent missing => simp [missing]

/-- The choice is the same as long as the same config file is found, or none. -/
theorem Settings.Chosen.reread {given base : Option Path} {config : Config}
    (chosen : Settings.Chosen cwd t given config base)
    (same : FindsSame t t' cwd (given.getD Settings.defaultConfig)) :
    Settings.Chosen cwd t' given config base := by
  cases chosen with
  | given loaded => exact .given (Config.load_reread loaded same)
  | usual here loaded => exact .usual (same.isFile_eq.trans here) (Config.load_reread loaded same)
  | absent missing => exact .absent (same.isFile_eq.trans missing)

/-! ## Other options -/

/-- Options that ask for the version in the output of another command: in the
    lockfile that was stamped, or in the separate file. -/
structure Overrides.AsksFor (shown o : Overrides) (s : Settings) : Prop where
  config : shown.config = o.config
  package : shown.package = o.package
  lockfile : shown.lockfile = match s.output with
    | .inPlace => o.lockfile
    | .file path => some path

theorem Overrides.AsksFor.merge {config : Config} {base : Option Path}
    (asks : shown.AsksFor o (Settings.merge config base o)) :
    (Settings.merge config base shown).package = (Settings.merge config base o).package ∧
      (Settings.merge config base shown).lockfile = (Settings.merge config base o).patcher.outputPath := by
  constructor
  · simp [Settings.merge, asks.package]
  · have lockfile := asks.lockfile
    rw [Settings.patcher, Patcher.outputPath]
    cases output : (Settings.merge config base o).output with
    | inPlace =>
      rw [output] at lockfile
      simp [Settings.merge, lockfile]
    | file path =>
      rw [output] at lockfile
      simp [Settings.merge, lockfile]

/-- Settings that look at the output, resolved after the files have changed. -/
theorem Overrides.AsksFor.resolve (asks : shown.AsksFor o s) (resolved : Settings.resolve cwd o t = .ok s)
    (same : FindsSame t t' cwd (o.config.getD Settings.defaultConfig)) :
    ∃ s', Settings.resolve cwd shown t' = .ok s' ∧ s'.package = s.package ∧ s'.lockfile = s.patcher.outputPath := by
  obtain ⟨config, base, chosen, rfl⟩ := Settings.resolve_eq_ok_iff.mp resolved
  refine ⟨Settings.merge config base shown, Settings.resolve_eq_ok_iff.mpr ⟨config, base, ?_, rfl⟩, asks.merge⟩
  rw [asks.config]
  exact chosen.reread same

end ReleaseStamp
