import ReleaseStamp.Proofs.Files.Entries
import ReleaseStamp.Proofs.Hook.Edits
import ReleaseStamp.Proofs.Hook.LifeCycle

/-!
One call on a script that can be read, wherever the path of the script leads. A
call succeeds, answers what the text of the script tells, and leaves what its
edit says (`installAt_of_write`, `uninstallAt_of_reads`); a call that keeps the
script changes nothing.
-/
namespace ReleaseStamp.Hook

open FileTree

/-- What the script of a directory is found to hold: a text, or nothing where
    there is no script. -/
def Reads (t : FileTree) (cwd : Location) (hooks : Path) : Option (List Char) → Prop
  | none => t.has cwd (scriptPath hooks) = false
  | some text => t.readText cwd (scriptPath hooks) = .ok (String.ofList text)

/-- The script holds the text and can be executed. -/
def Executes (t : FileTree) (cwd : Location) (hooks : Path) (text : List Char) : Prop :=
  ∃ loc, t.find cwd (scriptPath hooks) = .ok (loc, .file scriptMode (.ofText (String.ofList text)))

variable {t t' : FileTree} {cwd : Location} {hooks : Path} {force : Bool} {current other : Option (List Char)}
  {text new : List Char}

theorem isName_script : Path.IsName "pre-commit" := ⟨by decide, by decide, by decide⟩

theorem moves_script (hooks : Path) : ∃ front, (scriptPath hooks).moves = front ++ [.down "pre-commit"] :=
  Path.exists_moves_join isName_script hooks

/-! ## Reading -/

theorem Reads.find (reads : Reads t cwd hooks (some text)) :
    ∃ loc mode, t.find cwd (scriptPath hooks) = .ok (loc, .file mode (.ofText (String.ofList text))) := by
  obtain ⟨loc, mode, content, found_, decoded⟩ := find_of_readText reads
  rw [Content.eq_ofText decoded] at found_
  exact ⟨loc, mode, found_⟩

theorem reads_of_find {loc : Location} {mode : Nat}
    (found_ : t.find cwd (scriptPath hooks) = .ok (loc, .file mode (.ofText (String.ofList text)))) :
    Reads t cwd hooks (some text) :=
  readText_of_find found_ (Content.text?_ofText _)

theorem Executes.reads (executes : Executes t cwd hooks text) : Reads t cwd hooks (some text) := by
  obtain ⟨loc, found_⟩ := executes
  exact reads_of_find found_

theorem readScript_of_reads (reads : Reads t cwd hooks current) :
    readScript cwd (scriptPath hooks) t = (.ok current, t) := by
  rw [readScript, FileM.ask_apply]
  cases current with
  | none =>
    rw [Reads] at reads
    simp [reads]
  | some text =>
    obtain ⟨loc, mode, found_⟩ := reads.find
    have there : t.has cwd (scriptPath hooks) = true := has_iff.mpr ⟨loc, _, found_⟩
    rw [Reads] at reads
    simp [there, reads, Except.map]

theorem Reads.unique (one : Reads t cwd hooks current) (two : Reads t cwd hooks other) : current = other := by
  have same := (readScript_of_reads one).symm.trans (readScript_of_reads two)
  simpa using same

theorem reads_hookOf (text : String) : Reads (hookOf text) [] ⟨"hooks"⟩ (some text.toList) := by
  have found_ : (hookOf text).find [] (scriptPath ⟨"hooks"⟩) =
      .ok (["hooks", "pre-commit"], .file 0o755 (.ofText (String.ofList text.toList))) := by
    rw [String.ofList_toList]
    rfl
  exact reads_of_find found_

/-- Where a script can be read its directory is there. -/
theorem Reads.makeDirectories (reads : Reads t cwd hooks (some text)) :
    FileM.makeDirectories cwd hooks t = (.ok (), t) := by
  obtain ⟨loc, mode, found_⟩ := reads.find
  exact makeDirectories_of_find_join isName_script found_

/-! ## Installing -/

theorem installAt_of_keep (reads : Reads t cwd hooks (some text)) {outcome : Installed}
    (edit : install force (some text) = (outcome, .keep)) : installAt cwd hooks force t = (.ok outcome, t) := by
  rw [installAt, FileM.bind_of_ok reads.makeDirectories, FileM.bind_of_ok (readScript_of_reads reads), edit]
  rfl

/-- The script is written in its place, through links, and made executable. -/
theorem installAt_of_write (reads : Reads t cwd hooks (some text)) {outcome : Installed}
    (edit : install force (some text) = (outcome, .write new)) :
    ∃ t', installAt cwd hooks force t = (.ok outcome, t') ∧ Executes t' cwd hooks new := by
  obtain ⟨loc, mode, found_⟩ := reads.find
  have written := FileM.writeText_of_ok (write_of_find found_ (.ofText (String.ofList new)))
  have there := find_put found_ mode (.ofText (String.ofList new))
  have changed := FileM.setMode_of_ok (setMode_of_find there scriptMode)
  refine ⟨_, ?_, loc, find_put there scriptMode (.ofText (String.ofList new))⟩
  rw [installAt, FileM.bind_of_ok reads.makeDirectories, FileM.bind_of_ok (readScript_of_reads reads), edit]
  simp only [apply, ne_eq, reduceCtorEq, not_false_eq_true, if_true]
  rw [FileM.bind_of_ok written, FileM.bind_of_ok changed]
  rfl

/-- Installing succeeds wherever the script can be read. -/
theorem installAt_of_reads (reads : Reads t cwd hooks (some text)) (force : Bool) :
    ∃ t', installAt cwd hooks force t = (.ok (install force (some text)).1, t') ∧
      Reads t' cwd hooks ((install force (some text)).2.after (some text)) ∧
      ((install force (some text)).2 = .keep → t' = t) := by
  rcases edit : install force (some text) with ⟨outcome, _ | new | _⟩
  · exact ⟨t, installAt_of_keep reads edit, reads, fun _ => rfl⟩
  · obtain ⟨t', done, executes⟩ := installAt_of_write reads edit
    exact ⟨t', done, executes.reads, by simp⟩
  · rcases install_cases force (some text) with keep | ⟨_, new, -, write⟩
    · simp [edit] at keep
    · simp [edit] at write

/-! ## Uninstalling -/

theorem uninstallAt_of_keep (reads : Reads t cwd hooks current) {outcome : Uninstalled}
    (edit : uninstall current = (outcome, .keep)) : uninstallAt cwd hooks t = (.ok outcome, t) := by
  rw [uninstallAt, FileM.bind_of_ok (readScript_of_reads reads), edit]
  rfl

theorem uninstallAt_of_write (reads : Reads t cwd hooks (some text)) {outcome : Uninstalled}
    (edit : uninstall (some text) = (outcome, .write new)) :
    ∃ t', uninstallAt cwd hooks t = (.ok outcome, t') ∧ Reads t' cwd hooks (some new) := by
  obtain ⟨loc, mode, found_⟩ := reads.find
  have written := FileM.writeText_of_ok (write_of_find found_ (.ofText (String.ofList new)))
  refine ⟨_, ?_, reads_of_find (find_put found_ mode (.ofText (String.ofList new)))⟩
  rw [uninstallAt, FileM.bind_of_ok (readScript_of_reads reads), edit]
  dsimp only [apply]
  rw [FileM.bind_of_ok written]
  rfl

/-- The entry of the script is removed; a link is not followed for this. -/
theorem uninstallAt_of_delete (reads : Reads t cwd hooks (some text)) {outcome : Uninstalled}
    (edit : uninstall (some text) = (outcome, .delete)) :
    ∃ t', uninstallAt cwd hooks t = (.ok outcome, t') ∧ t.removeFile cwd (scriptPath hooks) = .ok t' ∧
      Reads t' cwd hooks none := by
  obtain ⟨loc, mode, found_⟩ := reads.find
  obtain ⟨front, forth⟩ := moves_script hooks
  obtain ⟨entry, named, removed⟩ := removeFile_of_find forth found_
  refine ⟨_, ?_, removed, has_erase named⟩
  rw [uninstallAt, FileM.bind_of_ok (readScript_of_reads reads), edit]
  dsimp only [apply]
  rw [FileM.bind_of_ok (FileM.removeFile_of_ok removed)]
  rfl

/-- Uninstalling succeeds wherever the script can be read, or is not there. -/
theorem uninstallAt_of_reads (reads : Reads t cwd hooks current) :
    ∃ t', uninstallAt cwd hooks t = (.ok (uninstall current).1, t') ∧
      Reads t' cwd hooks ((uninstall current).2.after current) ∧ ((uninstall current).2 = .keep → t' = t) := by
  cases current with
  | none => exact ⟨t, uninstallAt_of_keep reads rfl, reads, fun _ => rfl⟩
  | some text =>
    rcases edit : uninstall (some text) with ⟨outcome, kept | new | _⟩
    · exact ⟨t, uninstallAt_of_keep reads edit, reads, fun _ => rfl⟩
    · obtain ⟨t', done, left⟩ := uninstallAt_of_write reads edit
      exact ⟨t', done, left, by simp⟩
    · obtain ⟨t', done, -, gone⟩ := uninstallAt_of_delete reads edit
      exact ⟨t', done, gone, by simp⟩

end ReleaseStamp.Hook
