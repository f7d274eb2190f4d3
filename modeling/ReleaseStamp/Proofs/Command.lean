import ReleaseStamp.Command
import ReleaseStamp.Proofs.Git.Staging
import ReleaseStamp.Proofs.Patcher
import ReleaseStamp.Proofs.Settings

/-!
The stamping command: settings, the write of the patcher, and staging, each of
which can fail. Only staging fails after something was written, and it leaves
the write as it is (`Patched`); the index that it writes is never the stamped
file itself (`Git.Updates.ne_place`), so the blob in the index and the file agree at the end
(`patch_states`).
-/
namespace ReleaseStamp.Command

open FileTree

section

variable [Git.Library] {env : Environment} {o : Overrides} {tag : String} {t t' : FileTree} {s : Settings}

/-- How the command ends: in one of three failures, or after the write, with
    the file staged or not. -/
inductive Patched (env : Environment) (o : Overrides) (tag : String) (t : FileTree) :
    Except CommandError (List Report) → FileTree → Prop where
  | unsettled {e : ConfigError} : Settings.resolve env.directory o t = .error e →
      Patched env o tag t (.error (.config e)) t
  | unstamped {s : Settings} {e : PatchError} {t' : FileTree} : Settings.resolve env.directory o t = .ok s →
      s.patcher.run env.directory tag t = (.error e, t') → Patched env o tag t (.error (.patch e)) t'
  | stamped {s : Settings} {change : Change} {t' : FileTree} : Settings.resolve env.directory o t = .ok s →
      s.patcher.run env.directory tag t = (.ok change, t') → s.stage = false →
      Patched env o tag t (.ok (reportOf s change)) t'
  | unstaged {s : Settings} {change : Change} {e : Git.StageError} {between t' : FileTree} :
      Settings.resolve env.directory o t = .ok s → s.patcher.run env.directory tag t = (.ok change, between) →
      s.stage = true → Git.stage env.directory env.indexFile s.patcher.outputPath between = (.error e, t') →
      Patched env o tag t (.error (.stage e)) t'
  | staged {s : Settings} {change : Change} {between t' : FileTree} :
      Settings.resolve env.directory o t = .ok s → s.patcher.run env.directory tag t = (.ok change, between) →
      s.stage = true → Git.stage env.directory env.indexFile s.patcher.outputPath between = (.ok (), t') →
      Patched env o tag t (.ok (reportOf s change)) t'

theorem patch_patched (env : Environment) (o : Overrides) (tag : String) (t : FileTree) :
    Patched env o tag t (patch env o tag t).1 (patch env o tag t).2 := by
  rw [patch, FileM.bind_apply, settings, FileM.ask_apply]
  rcases resolved : Settings.resolve env.directory o t with e | s
  · exact .unsettled resolved
  dsimp only [Except.mapError]
  rcases run : s.patcher.run env.directory tag t with ⟨e | change, between⟩
  · rw [FileM.bind_of_error (FileM.mapError_of_error run _)]
    exact .unstamped resolved run
  rw [FileM.bind_of_ok (FileM.mapError_of_ok run _)]
  cases stages : s.stage with
  | false => exact .stamped resolved run stages
  | true =>
    simp only [if_true]
    rcases staging : Git.stage env.directory env.indexFile s.patcher.outputPath between with ⟨e | _, t'⟩
    · rw [FileM.bind_of_error (FileM.mapError_of_error staging _)]
      exact .unstaged resolved run stages staging
    · rw [FileM.bind_of_ok (FileM.mapError_of_ok staging _)]
      exact .staged resolved run stages staging

/-! ## Failures -/

variable {answer : Except CommandError (List Report)} {loc place : Location} {stamped : Lockfile.Stamped}

/-- A command that fails has changed nothing, or only its last step failed, and
    what was written before it is complete. -/
theorem Patched.failure {e : CommandError} (patched : Patched env o tag t answer t') (failed : answer = .error e) :
    t' = t ∨ ∃ s fault loc stamped, Settings.resolve env.directory o t = .ok s ∧ s.stage = true ∧ e = .stage fault ∧
      t' = (s.patcher.run env.directory tag t).2 ∧ Patcher.Writes s.patcher env.directory tag t loc stamped t' := by
  cases patched with
  | unsettled => exact .inl rfl
  | @unstamped s e t' resolved run =>
    exact .inl ((Patcher.ran_of_run run).tree_of_error rfl)
  | stamped => contradiction
  | @unstaged s change fault between t' resolved run stages staging =>
    cases failed
    have same := Git.stage_error (congrArg Prod.fst staging)
    rw [staging] at same
    dsimp only at same
    subst same
    obtain ⟨loc, stamped, -, writes⟩ := (Patcher.ran_of_run run).writes rfl
    exact .inr ⟨s, fault, loc, stamped, resolved, stages, rfl, by rw [run], writes⟩
  | staged => contradiction

/-! ## Successes -/

/-- The stamped file has been written and then staged. Its text is in the file,
    and in the index, too, unless a content filter is configured that changes it.
    No other file has changed. -/
structure Stored (env : Environment) (p : Patcher) (tag : String) (t t' : FileTree) (loc : Location)
    (stamped : Lockfile.Stamped) (r : Git.Repository) (place : Location) (names : List String) (old new : Git.Index) :
    Prop where
  steps : ∃ between, Patcher.Writes p env.directory tag t loc stamped between ∧
    Git.Stages between t' env.directory env.indexFile loc r place names old new ∧
    (Git.Unfiltered between env.directory r names stamped.text.toUTF8 →
      Git.Adds (Git.Library.foldsCase between r env.indexFile) ("/".intercalate names) stamped.text.toUTF8 old new)
  file : ∃ mode, t'.find env.directory p.outputPath = .ok (loc, .file mode (.ofText stamped.text))
  index : ∃ mode, t'.find env.directory (Git.indexFileOf r env.indexFile) = .ok (place, .file mode (.index new))
  others : ∀ other, other ≠ loc → other ≠ place → t'.get? other = t.get? other

theorem stored_of_steps [Git.LawfulLibrary] {between : FileTree} {p : Patcher} {r : Git.Repository}
    {names : List String} {old new : Git.Index} {found : Location}
    (writes : Patcher.Writes p env.directory tag t loc stamped between)
    (resolved : between.canonical env.directory p.outputPath = .ok found)
    (stages : Git.Stages between t' env.directory env.indexFile found r place names old new) :
    Stored env p tag t t' loc stamped r place names old new := by
  obtain ⟨mode, written⟩ := writes.content
  have same : found = loc := by
    rw [FileTree.canonical, written] at resolved
    exact (Except.ok.inj resolved).symm
  subst same
  have here := get?_of_find written
  refine ⟨⟨between, writes, stages, fun plain => ?_⟩, ⟨mode, ?_⟩, stages.index.after, fun other off away => ?_⟩
  · have adds := stages.entry mode _ here
    rwa [stages.unfiltered mode _ here plain] at adds
  · -- The index lies elsewhere, so writing it leaves the stamped file as it is.
    exact stages.index.elsewhere _ _ _ _ written (stages.index.ne_place here)
  · exact (stages.index.others other away).trans (writes.others other off)

theorem Patched.success [Git.LawfulLibrary] {reports : List Report} (patched : Patched env o tag t answer t')
    (done : answer = .ok reports) :
    ∃ s loc stamped, Settings.resolve env.directory o t = .ok s ∧
      reports = reportOf s (Patcher.changeOf stamped tag) ∧
      (s.stage = false → t' = (s.patcher.run env.directory tag t).2 ∧
        Patcher.Writes s.patcher env.directory tag t loc stamped t') ∧
      (s.stage = true → ∃ r place names old new, Stored env s.patcher tag t t' loc stamped r place names old new) := by
  cases patched with
  | unsettled => contradiction
  | unstamped => contradiction
  | @stamped s change t' resolved run plain =>
    cases done
    obtain ⟨loc, stamped, rfl, writes⟩ := (Patcher.ran_of_run run).writes rfl
    exact ⟨s, loc, stamped, resolved, rfl, fun _ => ⟨by rw [run], writes⟩, by simp [plain]⟩
  | unstaged => contradiction
  | @staged s change between t' resolved run stages staging =>
    cases done
    obtain ⟨loc, stamped, rfl, writes⟩ := (Patcher.ran_of_run run).writes rfl
    obtain ⟨found, r, place, names, old, new, canonical, moved⟩ := Git.stage_ok (congrArg Prod.fst staging)
    rw [staging] at moved
    refine ⟨s, loc, stamped, resolved, rfl, by simp [stages], fun _ => ⟨r, place, names, old, new, ?_⟩⟩
    exact stored_of_steps writes canonical moved

/-- The stamping command has either changed nothing, or failed in staging with
    the stamped text complete in the output file and no index written, or
    succeeded. Then the output file holds the stamped text, and it is the only
    file that changed; with staging, the index in use holds the same text under
    the path of the file below the work tree. -/
theorem patch_states [Git.LawfulLibrary] (env : Environment) (o : Overrides) (tag : String) (t : FileTree) :
    (∀ e, (patch env o tag t).1 = .error e →
      (patch env o tag t).2 = t ∨ ∃ s fault loc stamped, Settings.resolve env.directory o t = .ok s ∧
        s.stage = true ∧ e = .stage fault ∧ (patch env o tag t).2 = (s.patcher.run env.directory tag t).2 ∧
        Patcher.Writes s.patcher env.directory tag t loc stamped (patch env o tag t).2) ∧
    (∀ reports, (patch env o tag t).1 = .ok reports →
      ∃ s loc stamped, Settings.resolve env.directory o t = .ok s ∧
        reports = reportOf s (Patcher.changeOf stamped tag) ∧
        (s.stage = false → (patch env o tag t).2 = (s.patcher.run env.directory tag t).2 ∧
          Patcher.Writes s.patcher env.directory tag t loc stamped (patch env o tag t).2) ∧
        (s.stage = true → ∃ r place names old new,
          Stored env s.patcher tag t (patch env o tag t).2 loc stamped r place names old new)) :=
  ⟨fun _ failed => (patch_patched env o tag t).failure failed,
    fun _ done => (patch_patched env o tag t).success done⟩

end

/-- The option to stage is not overruled. -/
theorem stage_of_resolve {o : Overrides} {t : FileTree} {s : Settings} {cwd : Location}
    (resolved : Settings.resolve cwd o t = .ok s) (asked : o.stage = true) : s.stage = true := by
  obtain ⟨config, base, -, rfl⟩ := Settings.resolve_eq_ok_iff.mp resolved
  simp [Settings.merge, asked]

/-- A work tree with a lockfile of one package. -/
def oneLockfile : FileTree :=
  (Git.Repository.create (FileTree.empty.put ["work"] .directory) ["work"] false).put ["work", "Cargo.lock"]
    (.file 0o644 (.ofText "name = \"ram-machine\"\nversion = \"1\"\n"))

theorem patch_states_oneLockfile :
    ∃ s loc stamped r place names old new, Settings.resolve ["work"] { stage := true } oneLockfile = .ok s ∧
      Stored ⟨["work"], none⟩ s.patcher "2" oneLockfile (patch ⟨["work"], none⟩ { stage := true } "2" oneLockfile).2
        loc stamped r place names old new := by
  have succeeds : (patch ⟨["work"], none⟩ { stage := true } "2" oneLockfile).1.toBool = true := by decide +kernel
  obtain ⟨reports, done⟩ : ∃ reports, (patch ⟨["work"], none⟩ { stage := true } "2" oneLockfile).1 = .ok reports := by
    cases answer : (patch ⟨["work"], none⟩ { stage := true } "2" oneLockfile).1 with
    | ok reports => exact ⟨reports, rfl⟩
    | error e => simp [answer, Except.toBool] at succeeds
  obtain ⟨s, loc, stamped, resolved, -, -, staged⟩ :=
    (patch_states ⟨["work"], none⟩ { stage := true } "2" oneLockfile).2 reports done
  obtain ⟨r, place, names, old, new, stored⟩ := staged (stage_of_resolve resolved rfl)
  exact ⟨s, loc, stamped, r, place, names, old, new, resolved, stored⟩

/-- The same work tree, where an entry of the index has the name of the lockfile
    in another case and the settings take both for one. -/
def otherCase : FileTree :=
  (oneLockfile.put ["work", ".git", "config"] (.file 0o644 (.ofText "[core]\n\tignorecase = true\n"))).put
    ["work", ".git", "index"] (.file newFileMode (.index [⟨"CARGO.LOCK", false, .bytes "".toUTF8⟩]))

/-- The text that was stamped is not always in the index under the path of the file. -/
theorem patch_other_path :
    (patch ⟨["work"], none⟩ { stage := true } "2" otherCase).1.toBool = true ∧
      (patch ⟨["work"], none⟩ { stage := true } "2" otherCase).2.get? ["work", ".git", "index"] =
        some (.file newFileMode (.index
          [⟨"CARGO.LOCK", false, .bytes "name = \"ram-machine\"\nversion = \"2\"\n".toUTF8⟩])) := by
  decide +kernel

end ReleaseStamp.Command
