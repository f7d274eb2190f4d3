import ReleaseStamp.Proofs.Files.Growth
import ReleaseStamp.Proofs.Hook.Calls

/-!
What the calls touch, whatever lies at the path of the script: a file, a link to
one or into the void, a directory, or nothing. A call that fails has made no more
than directories of the hooks path. One that succeeds has changed the file that
the path of the script leads to, or removed the entry that the path names, and
nothing else (`calls_touch_script`).
-/
namespace ReleaseStamp.Hook

open FileTree

variable {t t' between : FileTree} {cwd : Location} {hooks : Path} {force : Bool} {current : Option (List Char)}
  {text : List Char} {answer : Except FileError Unit}

/-- What an installation has done to the files, by its answer. -/
def InstallTouches (cwd : Location) (hooks : Path) (t t' : FileTree) : Except FileError Installed → Prop
  | .error _ | .ok .already => Grows cwd hooks.ancestors t t'
  | .ok _ => ∃ between loc content, Grows cwd hooks.ancestors t between ∧
      ChangesAt between t' cwd (scriptPath hooks) loc ∧
      t'.find cwd (scriptPath hooks) = .ok (loc, .file scriptMode content)

/-- What an uninstallation has done to the files, by its answer. -/
def UninstallTouches (cwd : Location) (hooks : Path) (t t' : FileTree) : Except FileError Uninstalled → Prop
  | .error _ | .ok .notInstalled => t' = t
  | .ok .stripped => ∃ loc mode old new, t.find cwd (scriptPath hooks) = .ok (loc, .file mode old) ∧
      t'.find cwd (scriptPath hooks) = .ok (loc, .file mode new) ∧ SameBut loc t t'
  | .ok .deleted => ∃ entry node, t.entry? cwd (scriptPath hooks) = .ok (some entry) ∧ t.get? entry = some node ∧
      node ≠ .directory ∧ t'.get? entry = none ∧ SameBut entry t t'

/-! ## Installing -/

/-- A script that was written is there to be made executable, and only it changes. -/
theorem changesAt_of_write {content : Content} (written : t.write cwd (scriptPath hooks) content = .ok between) :
    ∃ t' loc, FileM.setMode cwd (scriptPath hooks) scriptMode between = (.ok (), t') ∧
      ChangesAt t t' cwd (scriptPath hooks) loc ∧
      t'.find cwd (scriptPath hooks) = .ok (loc, .file scriptMode content) := by
  obtain ⟨loc, mode, changes, found_⟩ := find_of_write written
  obtain ⟨shown, looked, leaf⟩ := changes.leads
  have changed := FileM.setMode_of_ok (setMode_of_find found_ scriptMode)
  exact ⟨_, loc, changed, changesAt_of_lookup looked leaf (changes.others.trans (sameBut_put _)),
    find_put found_ scriptMode content⟩

theorem installAt_touches (cwd : Location) (hooks : Path) (force : Bool) (t : FileTree) :
    InstallTouches cwd hooks t (installAt cwd hooks force t).2 (installAt cwd hooks force t).1 := by
  have grows := grows_makeDirectories cwd hooks t
  rcases made : FileM.makeDirectories cwd hooks t with ⟨e | _, between⟩ <;> rw [made] at grows
  · rw [installAt, FileM.bind_of_error made]
    exact grows
  rw [installAt, FileM.bind_of_ok made]
  rcases read : readScript cwd (scriptPath hooks) between with ⟨e | current, same⟩ <;> obtain rfl := readScript_tree read
  · rw [FileM.bind_of_error read]
    exact grows
  rw [FileM.bind_of_ok read]
  rcases install_cases force current with keep | ⟨outcome, text, told, write⟩
  · rw [keep]
    exact grows
  simp only [write, apply, ne_eq, reduceCtorEq, not_false_eq_true, if_true]
  cases opened : same.write cwd (scriptPath hooks) (.ofText (String.ofList text)) with
  | error e =>
    rw [FileM.bind_of_error (FileM.writeText_of_error opened)]
    exact grows
  | ok written =>
    obtain ⟨t', loc, changed, changes, found_⟩ := changesAt_of_write opened
    rw [FileM.bind_of_ok (FileM.writeText_of_ok opened), FileM.bind_of_ok changed]
    cases outcome with
    | already => exact absurd rfl told
    | created | replaced | appended => exact ⟨same, loc, _, grows, changes, found_⟩

/-! ## Uninstalling -/

theorem uninstallAt_touches (cwd : Location) (hooks : Path) (t : FileTree) :
    UninstallTouches cwd hooks t (uninstallAt cwd hooks t).2 (uninstallAt cwd hooks t).1 := by
  rcases read : readScript cwd (scriptPath hooks) t with ⟨e | current, same⟩ <;> obtain rfl := readScript_tree read
  · rw [uninstallAt, FileM.bind_of_error read]
    rfl
  rw [uninstallAt, FileM.bind_of_ok read]
  rcases uninstall_cases current with keep | ⟨text, rfl, ⟨rest, write⟩ | delete⟩
  · rw [keep]
    rfl
  all_goals
    obtain ⟨held, there, -⟩ := readText_of_readScript read
    obtain ⟨loc, mode, content, found_, -⟩ := find_of_readText there
  · -- What can be read can be written to.
    have written := FileM.writeText_of_ok (write_of_find found_ (.ofText (String.ofList rest)))
    simp only [write, apply]
    rw [FileM.bind_of_ok written]
    exact ⟨loc, mode, content, _, found_, find_put found_ mode _, sameBut_put _⟩
  · obtain ⟨front, forth⟩ := moves_script hooks
    obtain ⟨entry, named, removed⟩ := removeFile_of_find forth found_
    obtain ⟨node, here, other⟩ := get?_of_entry? named found_
    have below : entry ≠ [] := by
      rintro rfl
      exact other (by simpa using here.symm)
    simp only [delete, apply]
    rw [FileM.bind_of_ok (FileM.removeFile_of_ok removed)]
    exact ⟨entry, node, named, here, other, get?_erase_self same below, sameBut_erase⟩

/-! ## Both calls -/

/-- Whatever the files are, both calls touch no more than the script. -/
theorem calls_touch_script (cwd : Location) (hooks : Path) (force : Bool) (t : FileTree) :
    InstallTouches cwd hooks t (installAt cwd hooks force t).2 (installAt cwd hooks force t).1 ∧
      UninstallTouches cwd hooks t (uninstallAt cwd hooks t).2 (uninstallAt cwd hooks t).1 :=
  ⟨installAt_touches cwd hooks force t, uninstallAt_touches cwd hooks t⟩

end ReleaseStamp.Hook
