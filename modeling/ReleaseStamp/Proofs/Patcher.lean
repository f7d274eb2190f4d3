import ReleaseStamp.Patcher
import ReleaseStamp.Proofs.Files.Lookups

/-!
Runs of the patcher. `Ran` tells once how a run can end: in one of four
failures, which leave the tree as it was, or after one write. What a write does
to the tree is told by its one location (`find_of_write`), so the stamped text
and the files that stay follow from that ending (`run_all_or_nothing`).
-/
namespace ReleaseStamp.Patcher

variable {p : Patcher} {cwd : Location} {tag : String} {t t' : FileTree}

/-- How a run of the patcher ends: its answer, and the tree that it leaves. -/
inductive Ran (p : Patcher) (cwd : Location) (tag : String) (t : FileTree) :
    Except PatchError Change → FileTree → Prop where
  | unreadable {cause : FileError} : t.readText cwd p.lockfile = .error cause →
      Ran p cwd tag t (.error (.unreadable p.lockfile cause)) t
  | unsearchable {text : String} {cause : Lockfile.SearchError} : t.readText cwd p.lockfile = .ok text →
      Lockfile.stamp text p.package tag = .error cause → Ran p cwd tag t (.error (.unsearchable cause)) t
  | packageNotFound {text : String} {stamped : Lockfile.Stamped} : t.readText cwd p.lockfile = .ok text →
      Lockfile.stamp text p.package tag = .ok stamped → stamped.previous = none ∧ p.missing = .fail →
      Ran p cwd tag t (.error (.packageNotFound p.package p.lockfile)) t
  | unwritable {text : String} {stamped : Lockfile.Stamped} {cause : FileError} : t.readText cwd p.lockfile = .ok text →
      Lockfile.stamp text p.package tag = .ok stamped → ¬ (stamped.previous = none ∧ p.missing = .fail) →
      t.write cwd p.outputPath (.ofText stamped.text) = .error cause →
      Ran p cwd tag t (.error (.unwritable p.outputPath cause)) t
  | written {text : String} {stamped : Lockfile.Stamped} {t' : FileTree} : t.readText cwd p.lockfile = .ok text →
      Lockfile.stamp text p.package tag = .ok stamped → ¬ (stamped.previous = none ∧ p.missing = .fail) →
      t.write cwd p.outputPath (.ofText stamped.text) = .ok t' → Ran p cwd tag t (.ok (changeOf stamped tag)) t'

theorem run_ran (p : Patcher) (cwd : Location) (tag : String) (t : FileTree) :
    Ran p cwd tag t (p.run cwd tag t).1 (p.run cwd tag t).2 := by
  rw [run]
  rcases read : t.readText cwd p.lockfile with cause | text
  · rw [FileM.bind_of_error (FileM.mapError_of_error (FileM.readText_of_error read) _)]
    exact .unreadable read
  rw [FileM.bind_of_ok (FileM.mapError_of_ok (FileM.readText_of_ok read) _), FileM.bind_apply, FileM.ask_apply]
  rcases search : Lockfile.stamp text p.package tag with cause | stamped
  · simp only [stampText, search]
    exact .unsearchable read search
  by_cases missing : stamped.previous = none ∧ p.missing = .fail
  · simp only [stampText, search, if_pos missing]
    exact .packageNotFound read search missing
  simp only [stampText, search, if_neg missing]
  rcases write : t.write cwd p.outputPath (.ofText stamped.text) with cause | t'
  · rw [FileM.bind_of_error (FileM.mapError_of_error (FileM.writeText_of_error write) _)]
    exact .unwritable read search missing write
  · rw [FileM.bind_of_ok (FileM.mapError_of_ok (FileM.writeText_of_ok write) _)]
    exact .written read search missing write

theorem ran_of_run {answer : Except PatchError Change} (run : p.run cwd tag t = (answer, t')) :
    Ran p cwd tag t answer t' := by
  have ran := run_ran p cwd tag t
  rwa [run] at ran

theorem changeOf_eq_notFound_iff {stamped : Lockfile.Stamped} :
    changeOf stamped tag = .notFound ↔ stamped.previous = none := by
  rw [changeOf]
  cases stamped.previous with
  | none => simp
  | some previous => by_cases same : previous = tag <;> simp [same]

theorem changeOf_eq_unchanged_iff {stamped : Lockfile.Stamped} :
    changeOf stamped tag = .unchanged ↔ stamped.previous = some tag := by
  rw [changeOf]
  cases stamped.previous with
  | none => simp
  | some previous => by_cases same : previous = tag <;> simp [same]

/-! ## The write -/

/-- The stamped text of the lockfile has gone to the location that the output
    path leads to, and nothing else has changed. -/
structure Writes (p : Patcher) (cwd : Location) (tag : String) (t : FileTree) (loc : Location)
    (stamped : Lockfile.Stamped) (t' : FileTree) : Prop extends t.ChangesAt t' cwd p.outputPath loc where
  source : ∃ text, t.readText cwd p.lockfile = .ok text ∧ Lockfile.stamp text p.package tag = .ok stamped
  content : ∃ mode, t'.find cwd p.outputPath = .ok (loc, .file mode (.ofText stamped.text))

variable {answer : Except PatchError Change}

theorem Ran.tree_of_error {e : PatchError} (ran : Ran p cwd tag t answer t') (failed : answer = .error e) : t' = t := by
  cases ran with
  | written => contradiction
  | _ => rfl

theorem Ran.made {change : Change} (ran : Ran p cwd tag t answer t') (done : answer = .ok change) :
    ∃ text stamped, t.readText cwd p.lockfile = .ok text ∧ Lockfile.stamp text p.package tag = .ok stamped ∧
      ¬ (stamped.previous = none ∧ p.missing = .fail) ∧ change = changeOf stamped tag ∧
      t.write cwd p.outputPath (.ofText stamped.text) = .ok t' := by
  cases ran with
  | written read search listed write =>
    cases done
    exact ⟨_, _, read, search, listed, rfl, write⟩
  | _ => contradiction

theorem Ran.writes {change : Change} (ran : Ran p cwd tag t answer t') (done : answer = .ok change) :
    ∃ loc stamped, change = changeOf stamped tag ∧ Writes p cwd tag t loc stamped t' := by
  obtain ⟨text, stamped, read, search, -, rfl, write⟩ := ran.made done
  obtain ⟨loc, mode, changes, found⟩ := FileTree.find_of_write write
  exact ⟨loc, stamped, rfl, changes, ⟨text, read, search⟩, ⟨mode, found⟩⟩

/-- A lockfile that the output path does not lead to stays as it was. -/
theorem Writes.find_lockfile {loc : Location} {stamped : Lockfile.Stamped} (writes : Writes p cwd tag t loc stamped t')
    (apart : t.canonical cwd p.outputPath ≠ t.canonical cwd p.lockfile) :
    t'.find cwd p.lockfile = t.find cwd p.lockfile := by
  obtain ⟨text, read, -⟩ := writes.source
  obtain ⟨shown, looked, leaf⟩ := writes.leads
  obtain ⟨source, mode, content, found, -⟩ := FileTree.find_of_readText read
  rw [found]
  refine writes.elsewhere cwd p.lockfile _ _ found ?_
  -- Were the lockfile at the place of the write, both paths would lead to it.
  rintro rfl
  have here := FileTree.get?_of_find found
  cases leaf with
  | vacant nothing => simp [here] at nothing
  | file there =>
    apply apart
    rw [FileTree.canonical, FileTree.canonical, found, FileTree.find_eq_ok_iff.mpr looked]
    rfl

/-- Stamping finds no version if and only if none can be read. -/
theorem stamp_none_iff (text package tag : String) :
    (∃ stamped, Lockfile.stamp text package tag = .ok stamped ∧ stamped.previous = none) ↔
      Lockfile.version? text package = .ok none := by
  rw [Lockfile.stamp, Lockfile.version?]
  by_cases compiles : Lockfile.searchable package = true
  · rw [if_pos compiles, if_pos compiles]
    cases Lockfile.locate package.toList text.toList <;> simp
  · simp [compiles]

theorem Ran.packageNotFound_iff (ran : Ran p cwd tag t answer t') (package : String) (lockfile : Path) :
    answer = .error (.packageNotFound package lockfile) ↔ (package = p.package ∧ lockfile = p.lockfile) ∧
      p.missing = .fail ∧ ∃ text, t.readText cwd p.lockfile = .ok text ∧
        Lockfile.version? text p.package = .ok none := by
  simp only [← stamp_none_iff _ _ tag]
  cases ran with
  | unreadable read => simp [read]
  | unsearchable read search => simp [read, search]
  | packageNotFound read search missing => simp [read, search, missing, eq_comm]
  | unwritable read search listed write =>
    have open_ : ¬ (p.missing = .fail ∧ _) := fun both => listed both.symm
    simp [read, search, open_]
  | written read search listed write =>
    have open_ : ¬ (p.missing = .fail ∧ _) := fun both => listed both.symm
    simp [read, search, open_]

/-- A run of the patcher that fails changes nothing. One that succeeds has
    written the stamped text of the lockfile, as it was before, to where the
    output path leads, and has changed nothing else: a lockfile elsewhere stays
    as it was. A missing package is told exactly where it has to be there and
    no version of it can be read. -/
theorem run_all_or_nothing (p : Patcher) (cwd : Location) (tag : String) (t : FileTree) :
    (∀ e, (p.run cwd tag t).1 = .error e → (p.run cwd tag t).2 = t) ∧
    (∀ change, (p.run cwd tag t).1 = .ok change →
      ∃ loc stamped, change = changeOf stamped tag ∧ Writes p cwd tag t loc stamped (p.run cwd tag t).2 ∧
        (t.canonical cwd p.outputPath ≠ t.canonical cwd p.lockfile →
          (p.run cwd tag t).2.find cwd p.lockfile = t.find cwd p.lockfile)) ∧
    ∀ package lockfile, (p.run cwd tag t).1 = .error (.packageNotFound package lockfile) ↔
      (package = p.package ∧ lockfile = p.lockfile) ∧ p.missing = .fail ∧
        ∃ text, t.readText cwd p.lockfile = .ok text ∧ Lockfile.version? text p.package = .ok none := by
  have ran := run_ran p cwd tag t
  refine ⟨fun e failed => ran.tree_of_error failed, ?_, ran.packageNotFound_iff⟩
  intro change done
  obtain ⟨loc, stamped, same, writes⟩ := ran.writes done
  exact ⟨loc, stamped, same, writes, writes.find_lockfile⟩

/-- A directory with a lockfile of one package. -/
def oneLockfile : FileTree :=
  FileTree.empty.put ["Cargo.lock"] (.file 0o644 (.ofText "name = \"ram-machine\"\nversion = \"1\"\n"))

theorem run_all_or_nothing_oneLockfile :
    ∃ loc stamped, Change.updated "1" = changeOf stamped "2" ∧
      Writes alternate [] "2" oneLockfile loc stamped (alternate.run [] "2" oneLockfile).2 ∧
      (alternate.run [] "2" oneLockfile).2.find [] defaultLockfile = oneLockfile.find [] defaultLockfile := by
  have done : (alternate.run [] "2" oneLockfile).1 = .ok (.updated "1") := by decide +kernel
  obtain ⟨loc, stamped, same, writes, kept⟩ := (run_all_or_nothing alternate [] "2" oneLockfile).2.1 _ done
  have apart : oneLockfile.canonical [] alternate.outputPath ≠ oneLockfile.canonical [] defaultLockfile := by
    decide +kernel
  exact ⟨loc, stamped, same, writes, kept apart⟩

end ReleaseStamp.Patcher
