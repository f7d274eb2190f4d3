import ReleaseStamp.Proofs.Lockfile.Runs
import ReleaseStamp.Proofs.Patcher

/-!
A run in two halves, the reading and the writing (`run_eq_halves`), and a second
run in place after a first one with the same tag. With a tag of one line it
finds the tag and changes nothing (`run_again`); a line break in the tag cuts the
value short, so that the second run does not find what the first has written
(`run_again_grows`).
-/
namespace ReleaseStamp.Patcher

variable {p : Patcher} {cwd loc : Location} {tag text : String} {t t' : FileTree} {mode : Nat} {content : Content}

/-! ## The halves of a run -/

/-- Reads the lockfile and works out the stamped text. -/
def prepare (p : Patcher) (cwd : Location) (tag : String) : FileM PatchError (String × Change) := do
  let text ← (FileM.readText cwd p.lockfile).mapError (.unreadable p.lockfile)
  FileM.ask fun _ => p.stampText text tag

/-- Writes the stamped text. -/
def commit (p : Patcher) (cwd : Location) (stamped : String) : FileM PatchError Unit :=
  (FileM.writeText cwd p.outputPath stamped).mapError (.unwritable p.outputPath)

theorem run_eq_halves (p : Patcher) (cwd : Location) (tag : String) :
    p.run cwd tag = (do
      let (stamped, change) ← p.prepare cwd tag
      p.commit cwd stamped
      pure change) := by
  rw [run, prepare, FileM.bind_assoc]
  rfl

theorem prepare_of_find (found : t.find cwd p.lockfile = .ok (loc, .file mode content))
    (decoded : content.text? = some text) : p.prepare cwd tag t = (p.stampText text tag, t) := by
  have read := FileM.readText_of_ok (FileTree.readText_of_find found decoded)
  rw [prepare, FileM.bind_of_ok (FileM.mapError_of_ok read _), FileM.ask_apply]

theorem commit_of_find (found : t.find cwd p.outputPath = .ok (loc, .file mode content)) (stamped : String) :
    p.commit cwd stamped t = (.ok (), t.put loc (.file mode (.ofText stamped))) :=
  FileM.mapError_of_ok (FileM.writeText_of_ok (FileTree.write_of_find found _)) _

theorem outputPath_of_inPlace (inPlace : p.output = .inPlace) : p.outputPath = p.lockfile := by
  rw [outputPath, inPlace]

theorem run_of_find {stamped : String} {change : Change} (inPlace : p.output = .inPlace)
    (found : t.find cwd p.lockfile = .ok (loc, .file mode content)) (decoded : content.text? = some text)
    (made : p.stampText text tag = .ok (stamped, change)) :
    p.run cwd tag t = (.ok change, t.put loc (.file mode (.ofText stamped))) := by
  have ready : p.prepare cwd tag t = (.ok (stamped, change), t) := by rw [prepare_of_find found decoded, made]
  rw [← outputPath_of_inPlace inPlace] at found
  rw [run_eq_halves, FileM.bind_of_ok ready]
  dsimp only
  rw [FileM.bind_of_ok (commit_of_find found stamped), FileM.pure_apply]

/-! ## A second run -/

theorem Ran.inPlace {change : Change} (inPlace : p.output = .inPlace) (ran : Ran p cwd tag t (.ok change) t') :
    ∃ text stamped loc mode, Lockfile.stamp text p.package tag = .ok stamped ∧
      ¬ (stamped.previous = none ∧ p.missing = .fail) ∧ change = changeOf stamped tag ∧
      t.readText cwd p.lockfile = .ok text ∧
      t'.find cwd p.lockfile = .ok (loc, .file mode (.ofText stamped.text)) ∧
      t'.put loc (.file mode (.ofText stamped.text)) = t' := by
  obtain ⟨text, stamped, read, made, listed, same, write⟩ := ran.made rfl
  obtain ⟨loc, mode, content, found_, -⟩ := FileTree.find_of_readText read
  rw [outputPath_of_inPlace inPlace, FileTree.write_of_find found_] at write
  cases write
  exact ⟨text, stamped, loc, mode, made, listed, same, read, FileTree.find_put found_ _ _, FileTree.put_put ..⟩

/-- After a run in place, a second run with the same tag leaves everything as it
    is if the package was not found or the tag has no line break. It reports the
    tag as unchanged if and only if the package was found and the tag has no
    line break. -/
theorem run_again {change : Change} (inPlace : p.output = .inPlace) (first : p.run cwd tag t = (.ok change, t')) :
    (change = .notFound ∨ '\n' ∉ tag.toList →
      p.run cwd tag t' = (.ok (if change = .notFound then .notFound else .unchanged), t')) ∧
    ((p.run cwd tag t').1 = .ok .unchanged ↔ change ≠ .notFound ∧ '\n' ∉ tag.toList) := by
  obtain ⟨text, stamped, loc, mode, made, listed, rfl, -, found_, same⟩ := (ran_of_run first).inPlace inPlace
  have repeats : changeOf stamped tag = .notFound ∨ '\n' ∉ tag.toList →
      p.run cwd tag t' = (.ok (if changeOf stamped tag = .notFound then .notFound else .unchanged), t') := by
    intro fit
    rw [changeOf_eq_notFound_iff] at fit
    have still : ¬ ((stamped.previous.map fun _ => tag) = none ∧ p.missing = .fail) := by simpa using listed
    have again : p.stampText stamped.text tag =
        .ok (stamped.text, changeOf ⟨stamped.text, stamped.previous.map fun _ => tag⟩ tag) := by
      simp only [stampText, Lockfile.stamp_again made fit, if_neg still]
    rw [run_of_find inPlace found_ (Content.text?_ofText _) again, same]
    -- What the second run finds is the tag, if the first one has found anything.
    by_cases missed : stamped.previous = none
    · rw [if_pos (changeOf_eq_notFound_iff.mpr missed), changeOf_eq_notFound_iff.mpr (by simp [missed])]
    · obtain ⟨previous, before⟩ := Option.ne_none_iff_exists'.mp missed
      rw [if_neg (mt changeOf_eq_notFound_iff.mp missed), changeOf_eq_unchanged_iff.mpr (by simp [before])]
  refine ⟨repeats, ?_, ?_⟩
  · intro unchanged
    have second := run_ran p cwd tag t'
    rw [unchanged] at second
    obtain ⟨_, _, _, _, made', -, tells, -⟩ := second.inPlace inPlace
    have line := Lockfile.newline_notMem_of_previous made' (changeOf_eq_unchanged_iff.mp tells.symm)
    refine ⟨fun missed => ?_, line⟩
    rw [repeats (.inl missed), if_pos missed] at unchanged
    simp at unchanged
  · rintro ⟨found_, line⟩
    rw [repeats (.inr line), if_neg found_]

theorem run_again_oneLockfile :
    ∃ t', stock.run [] "2" oneLockfile = (.ok (.updated "1"), t') ∧ stock.run [] "2" t' = (.ok .unchanged, t') := by
  rcases first : stock.run [] "2" oneLockfile with ⟨answer, t'⟩
  have done : (stock.run [] "2" oneLockfile).1 = .ok (.updated "1") := by decide +kernel
  rw [first] at done
  dsimp only at done
  subst done
  exact ⟨t', rfl, (run_again rfl first).1 (.inr (by decide))⟩

/-- A tag that closes the value before it breaks the line leaves its rest behind
    at each run. -/
theorem run_again_grows :
    ∃ t' t'', stock.run [] "1\"\n" oneLockfile = (.ok (.updated "1"), t') ∧
      stock.run [] "1\"\n" t' = (.ok (.updated "1"), t'') ∧
      t'.readText [] defaultLockfile = .ok "name = \"ram-machine\"\nversion = \"1\"\n\"\n" ∧
      t''.readText [] defaultLockfile = .ok "name = \"ram-machine\"\nversion = \"1\"\n\"\n\"\n" := by
  refine ⟨_, _, Prod.ext ?_ rfl, Prod.ext ?_ rfl, ?_, ?_⟩
  · decide +kernel
  · decide +kernel
  · decide +kernel
  · decide +kernel

end ReleaseStamp.Patcher
