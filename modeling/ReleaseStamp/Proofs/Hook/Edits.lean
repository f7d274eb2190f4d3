import ReleaseStamp.Hook.Installer
import ReleaseStamp.Proofs.Files.Lookups

/-!
Installing and uninstalling seen from the script's path, wherever it leads: what
is read there decides the outcome, and what is written there is read back
(`installAt_eq_ok`, `uninstallAt_eq_ok`).
-/
namespace ReleaseStamp.Hook

open FileTree

variable {t t' between : FileTree} {cwd : Location} {hooks script : Path} {force : Bool} {current : Option (List Char)}
  {text : List Char}

/-! ## Outcomes -/

/-- An installation leaves the script alone, or writes it; it never removes it. -/
theorem install_cases (force : Bool) (current : Option (List Char)) :
    install force current = (.already, .keep) ∨
      ∃ outcome text, outcome ≠ .already ∧ install force current = (outcome, .write text) := by
  cases current with
  | none => exact .inr ⟨_, _, by simp, rfl⟩
  | some text =>
    rw [install]
    split_ifs with mark forced
    · exact .inr ⟨_, _, by simp, rfl⟩
    · exact .inl rfl
    · exact .inr ⟨_, _, by simp, rfl⟩

theorem uninstall_cases (current : Option (List Char)) :
    uninstall current = (.notInstalled, .keep) ∨
      ∃ text, current = some text ∧
        ((∃ rest, uninstall current = (.stripped, .write rest)) ∨ uninstall current = (.deleted, .delete)) := by
  cases current with
  | none => exact .inl rfl
  | some text =>
    rw [uninstall]
    split_ifs with mark worth
    · exact .inr ⟨text, rfl, .inl ⟨_, rfl⟩⟩
    · exact .inr ⟨text, rfl, .inr rfl⟩
    · exact .inl rfl

theorem install_replaced (replaced : (install force current).1 = .replaced) :
    ∃ text, current = some text ∧ marked text = true ∧
      (install force current).2 = .write (withBlock (stripBlocks text)) := by
  cases current with
  | none => contradiction
  | some text =>
    rw [install] at replaced ⊢
    split_ifs at replaced ⊢ with mark forced
    exact ⟨text, rfl, mark, rfl⟩

theorem uninstall_stripped (stripped : (uninstall current).1 = .stripped) :
    ∃ text, current = some text ∧ marked text = true ∧
      (uninstall current).2 = .write (Text.trimEnd (stripBlocks text) ++ ['\n']) := by
  cases current with
  | none => contradiction
  | some text =>
    rw [uninstall] at stripped ⊢
    split_ifs at stripped ⊢ with mark worth
    exact ⟨text, rfl, mark, rfl⟩

theorem uninstall_deleted (deleted : (uninstall current).1 = .deleted) :
    ∃ text, current = some text ∧ marked text = true ∧ meaningful (stripBlocks text) = false := by
  cases current with
  | none => contradiction
  | some text =>
    rw [uninstall] at deleted
    split_ifs at deleted with mark worth
    exact ⟨text, rfl, mark, Bool.eq_false_iff.mpr worth⟩

/-! ## Edits on the files -/

theorem readScript_tree {answer : Except FileError (Option (List Char))} (run : readScript cwd script t = (answer, t')) :
    t' = t := by
  rw [readScript, FileM.ask_apply] at run
  exact (congrArg Prod.snd run).symm

theorem readText_of_readScript (read : readScript cwd script t = (.ok (some text), t)) :
    ∃ content, t.readText cwd script = .ok content ∧ content.toList = text := by
  rw [readScript, FileM.ask_apply] at read
  have answer := congrArg Prod.fst read
  dsimp only at answer
  split_ifs at answer
  · obtain ⟨content, there, same⟩ := map_eq_ok_iff.mp answer
    exact ⟨content, there, Option.some.inj same⟩
  · simp at answer

theorem apply_write_eq_ok (done : apply cwd script (.write text) t = (.ok (), t')) :
    ∃ loc mode, t'.find cwd script = .ok (loc, .file mode (.ofText (String.ofList text))) := by
  obtain ⟨loc, mode, -, found⟩ := find_of_write (FileM.change_eq_ok_iff.mp (show FileM.writeText cwd script _ t = _ from done))
  exact ⟨loc, mode, found⟩

theorem readText_of_apply (done : apply cwd script (.write text) t = (.ok (), t')) :
    t'.readText cwd script = .ok (String.ofList text) := by
  obtain ⟨loc, mode, found⟩ := apply_write_eq_ok done
  exact readText_of_find found (Content.text?_ofText _)

theorem readText_of_setMode {mode : Nat} (written : apply cwd script (.write text) t = (.ok (), between))
    (set_ : FileM.setMode cwd script mode between = (.ok (), t')) :
    t'.readText cwd script = .ok (String.ofList text) := by
  obtain ⟨loc, before, found⟩ := apply_write_eq_ok written
  have changed := FileM.change_eq_ok_iff.mp set_
  rw [setMode_of_find found] at changed
  cases changed
  exact readText_of_find (find_put found _ _) (Content.text?_ofText _)

/-- An installation that succeeds has made the directory, read the script, and
    left the text of its edit. -/
theorem installAt_eq_ok {outcome : Installed} (done : installAt cwd hooks force t = (.ok outcome, t')) :
    ∃ between current, FileM.makeDirectories cwd hooks t = (.ok (), between) ∧
      readScript cwd (scriptPath hooks) between = (.ok current, between) ∧ outcome = (install force current).1 ∧
      ∀ text, (install force current).2 = .write text →
        t'.readText cwd (scriptPath hooks) = .ok (String.ofList text) := by
  obtain ⟨_, between, made, reading⟩ := FileM.bind_eq_ok_iff.mp done
  obtain ⟨current, same, read, editing⟩ := FileM.bind_eq_ok_iff.mp reading
  obtain rfl := readScript_tree read
  dsimp only at editing
  obtain ⟨_, written, applied, setting⟩ := FileM.bind_eq_ok_iff.mp editing
  split at setting
  next changed =>
    obtain ⟨_, final, set_, last⟩ := FileM.bind_eq_ok_iff.mp setting
    cases last
    refine ⟨_, current, made, read, rfl, fun text edit => ?_⟩
    rw [edit] at applied
    exact readText_of_setMode applied set_
  next kept =>
    cases setting
    refine ⟨_, current, made, read, rfl, fun text edit => ?_⟩
    simp [edit] at kept

theorem uninstallAt_eq_ok {outcome : Uninstalled} (done : uninstallAt cwd hooks t = (.ok outcome, t')) :
    ∃ current, readScript cwd (scriptPath hooks) t = (.ok current, t) ∧ outcome = (uninstall current).1 ∧
      ∀ text, (uninstall current).2 = .write text →
        t'.readText cwd (scriptPath hooks) = .ok (String.ofList text) := by
  obtain ⟨current, same, read, editing⟩ := FileM.bind_eq_ok_iff.mp done
  obtain rfl := readScript_tree read
  dsimp only at editing
  obtain ⟨_, written, applied, last⟩ := FileM.bind_eq_ok_iff.mp editing
  cases last
  refine ⟨current, read, rfl, fun text edit => ?_⟩
  rw [edit] at applied
  exact readText_of_apply applied

/-- A directory of hooks whose script holds the text. -/
def hookOf (text : String) : FileTree :=
  (FileTree.empty.put ["hooks"] .directory).put ["hooks", "pre-commit"] (.file 0o755 (.ofText text))

end ReleaseStamp.Hook
