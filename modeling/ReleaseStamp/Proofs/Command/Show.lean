import ReleaseStamp.Proofs.Command
import ReleaseStamp.Proofs.Lockfile.Runs
import ReleaseStamp.Proofs.Settings

/-!
Showing the version after stamping it. Both commands resolve their settings on
their own, one before and one after the files are written. The writes lead no
path elsewhere (`Leaves.paths`), so the settings can only change if the config
file itself was written to; and the text that is shown is the one that was
stamped, since an index never takes the place of a text
(`Git.Updates.find_text`).
-/
namespace ReleaseStamp

open FileTree

variable {cwd loc : Location} {t t' : FileTree} {o : Overrides} {s : Settings}

/-! ## Files after the command -/

/-- The new index is in no file of text. -/
theorem Git.Updates.find_text {base : Location} {file path : Path} {place : Location} {old new : Git.Index} {mode : Nat}
    {text : String} (updates : Git.Updates t t' cwd file place old new)
    (found_ : t.find base path = .ok (loc, .file mode (.ofText text))) :
    t'.find base path = .ok (loc, .file mode (.ofText text)) :=
  updates.elsewhere _ _ _ _ found_ (updates.ne_place (get?_of_find found_))

namespace Command

variable {env : Environment} {tag : String} {answer : Except CommandError (List Report)}

/-- What a command that has stamped leaves to the commands after it. -/
structure Leaves (p : Patcher) (cwd : Location) (tag : String) (t t' : FileTree) (change : Change) : Prop where
  output : ∃ text stamped, Lockfile.stamp text p.package tag = .ok stamped ∧ change = Patcher.changeOf stamped tag ∧
    ∃ loc mode, t'.find cwd p.outputPath = .ok (loc, .file mode (.ofText stamped.text))
  paths : ∀ base path found, t.LeadsTo base path found ↔ t'.LeadsTo base path found
  kept : change = .notFound → ∃ loc mode text, t.find cwd p.lockfile = .ok (loc, .file mode (.ofText text)) ∧
    t'.find cwd p.lockfile = .ok (loc, .file mode (.ofText text))

theorem leaves_of_run {p : Patcher} {change : Change} (run : p.run cwd tag t = (.ok change, t')) :
    Leaves p cwd tag t t' change := by
  obtain ⟨text, stamped, read, made, -, rfl, write⟩ := (Patcher.ran_of_run run).made rfl
  obtain ⟨loc, mode, changes, found_⟩ := find_of_write write
  refine ⟨⟨text, stamped, made, rfl, loc, mode, found_⟩, ?_, fun missed => ?_⟩
  · exact fun _ _ _ => changes.leadsTo_iff (.file (get?_of_find found_))
  · obtain ⟨source, mode, content, there, decoded⟩ := find_of_readText read
    cases Content.eq_ofText decoded
    rw [Lockfile.text_of_previous_none made (Patcher.changeOf_eq_notFound_iff.mp missed)] at write
    exact ⟨source, mode, text, there, find_of_write_back there write⟩

theorem Leaves.update {p : Patcher} {change : Change} {between : FileTree} {file : Path} {place : Location}
    {old new : Git.Index} (leaves : Leaves p cwd tag t between change)
    (updates : Git.Updates between t' cwd file place old new) : Leaves p cwd tag t t' change where
  output := by
    obtain ⟨text, stamped, made, same, loc, mode, found_⟩ := leaves.output
    exact ⟨text, stamped, made, same, loc, mode, updates.find_text found_⟩
  paths base path found :=
    (leaves.paths base path found).trans (updates.leadsTo_iff (.file (get?_of_find updates.after.choose_spec)))
  kept missed := by
    obtain ⟨loc, mode, text, there, found_⟩ := leaves.kept missed
    exact ⟨loc, mode, text, there, updates.find_text found_⟩

/-- A command that succeeds has run the patcher, and has then written nothing
    but an index. -/
theorem Patched.leaves [Git.Library] [Git.LawfulLibrary] {reports : List Report}
    (patched : Patched env o tag t answer t') (done : answer = .ok reports) :
    ∃ s change, Settings.resolve env.directory o t = .ok s ∧ (s.patcher.run env.directory tag t).1 = .ok change ∧
      reports = reportOf s change ∧ Leaves s.patcher env.directory tag t t' change := by
  cases patched with
  | unsettled => contradiction
  | unstamped => contradiction
  | @stamped s change t' resolved run plain =>
    cases done
    exact ⟨s, change, resolved, by rw [run], rfl, leaves_of_run run⟩
  | unstaged => contradiction
  | @staged s change between t' resolved run stages staging =>
    cases done
    obtain ⟨found, r, place, names, old, new, -, moved⟩ := Git.stage_ok (congrArg Prod.fst staging)
    rw [staging] at moved
    exact ⟨s, change, resolved, by rw [run], rfl, (leaves_of_run run).update moved.index⟩

/-! ## The version after the command -/

/-- What the version command tells of the text that has just been stamped. -/
theorem versionIn_of_stamp {text : String} {stamped : Lockfile.Stamped} (made : Lockfile.stamp text s.package tag = .ok stamped)
    (line : '\n' ∉ tag.toList) : versionIn s stamped.text =
      if stamped.previous = none then .error (.notListed s.package s.lockfile) else .ok [.line (s.package ++ " " ++ tag)] := by
  rw [versionIn, Lockfile.version?_of_stamp made line]
  cases stamped.previous <;> simp

theorem showVersion_of_text {text : String} (resolved : Settings.resolve env.directory o t = .ok s)
    (read : t.readText env.directory s.lockfile = .ok text) : showVersion env o t = (versionIn s text, t) := by
  have settled : settings env o t = (.ok s, t) := by simp [settings, resolved, Except.mapError]
  rw [showVersion, FileM.bind_of_ok settled, FileM.bind_of_ok (FileM.mapError_of_ok (FileM.readText_of_ok read) _),
    FileM.ask_apply]

/-- Stamping and then showing. If stamping has succeeded with a tag of one line,
    and no file that it changed is the config file in use, then the version that
    is shown next is the tag, told in one line with the package. This is what
    comes of the same options, or of options for the separate file that was
    written. If the package was not found, the lockfile is as it was, and the
    version command fails with a message that says so. -/
theorem show_after_patch [Git.Library] [Git.LawfulLibrary] {reports : List Report} (line : '\n' ∉ tag.toList)
    (done : (patch env o tag t).1 = .ok reports)
    (apart : ∀ loc, (patch env o tag t).2.get? loc ≠ t.get? loc →
      ¬ t.LeadsTo env.directory (o.config.getD Settings.defaultConfig) loc) :
    ∃ s change, Settings.resolve env.directory o t = .ok s ∧ (s.patcher.run env.directory tag t).1 = .ok change ∧
      reports = reportOf s change ∧ ∀ shown : Overrides, shown.AsksFor o s →
        (change ≠ .notFound → ∃ told,
          showVersion env shown (patch env o tag t).2 = (.ok told, (patch env o tag t).2) ∧
          ∀ colour, CommandLine.Ending.success colour told = { exit := 0, out := s.package ++ " " ++ tag ++ "\n" }) ∧
        (change = .notFound →
          (patch env o tag t).2.find env.directory s.lockfile = t.find env.directory s.lockfile ∧ ∃ e,
            showVersion env shown (patch env o tag t).2 = (.error e, (patch env o tag t).2) ∧
            e.message = "package `" ++ s.package ++ "` not found in " ++ s.patcher.outputPath.text) := by
  obtain ⟨s, change, resolved, run, same, leaves⟩ := (patch_patched env o tag t).leaves done
  refine ⟨s, change, resolved, run, same, fun shown asks => ?_⟩
  have config : FindsSame t (patch env o tag t).2 env.directory (o.config.getD Settings.defaultConfig) := by
    intro loc mode content
    rw [find_eq_file_iff, find_eq_file_iff, ← leaves.paths]
    refine and_congr_right fun leads => ?_
    have untouched : (patch env o tag t).2.get? loc = t.get? loc := by
      by_contra changed
      exact apart loc changed leads
    rw [untouched]
  obtain ⟨s', again, package, lockfile⟩ := asks.resolve resolved config
  obtain ⟨text, stamped, made, rfl, loc, mode, output⟩ := leaves.output
  rw [← lockfile] at output
  have tells := showVersion_of_text again (readText_of_find output (Content.text?_ofText _))
  rw [show s.patcher.package = s'.package from package.symm] at made
  rw [versionIn_of_stamp made line] at tells
  constructor
  · intro found_
    rw [if_neg (mt Patcher.changeOf_eq_notFound_iff.mpr found_), package] at tells
    exact ⟨_, tells, fun colour => by simp [CommandLine.Ending.success, CommandLine.outLine, CommandLine.errLine]⟩
  · intro missed
    obtain ⟨_, _, _, there, kept⟩ := leaves.kept missed
    rw [if_pos (Patcher.changeOf_eq_notFound_iff.mp missed), package, lockfile] at tells
    exact ⟨kept.trans there.symm, _, tells, rfl⟩

theorem show_after_patch_staged :
    ∃ told, showVersion ⟨["work"], none⟩ {} (patch ⟨["work"], none⟩ { stage := true } "2" oneLockfile).2 =
        (.ok told, (patch ⟨["work"], none⟩ { stage := true } "2" oneLockfile).2) ∧
      CommandLine.Ending.success false told = { exit := 0, out := "ram-machine 2\n" } := by
  have succeeds : (patch ⟨["work"], none⟩ { stage := true } "2" oneLockfile).1.toBool = true := by decide +kernel
  obtain ⟨reports, done⟩ : ∃ reports, (patch ⟨["work"], none⟩ { stage := true } "2" oneLockfile).1 = .ok reports := by
    cases answer : (patch ⟨["work"], none⟩ { stage := true } "2" oneLockfile).1 with
    | ok reports => exact ⟨reports, rfl⟩
    | error e => simp [answer, Except.toBool] at succeeds
  obtain ⟨s, change, resolved, run, -, shows⟩ := show_after_patch (by decide) done fun loc changed leads => by
    -- The default config file is missing before and after.
    have looked : oneLockfile.lookup false ["work"] Settings.defaultConfig = .ok (.vacant ["work", "lockstamp.toml"]) := by
      decide +kernel
    obtain ⟨shown, there, leaf⟩ := leads
    cases looked.symm.trans there
    cases leaf.vacant_eq
    exact changed (by decide +kernel)
  have default_ : Settings.resolve ["work"] { stage := true } oneLockfile =
      .ok (Settings.merge {} none { stage := true }) := by
    exact Settings.resolve_eq_ok_iff.mpr ⟨_, _, .absent (by decide +kernel), rfl⟩
  cases default_.symm.trans resolved
  have updates : ((Settings.merge {} none { stage := true }).patcher.run ["work"] "2" oneLockfile).1 =
      .ok (.updated "1") := by decide +kernel
  cases updates.symm.trans run
  obtain ⟨told, tells, prints⟩ := (shows {} ⟨rfl, rfl, rfl⟩).1 (by decide)
  exact ⟨told, tells, prints false⟩

end Command

end ReleaseStamp
