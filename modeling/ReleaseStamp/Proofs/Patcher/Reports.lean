import ReleaseStamp.Proofs.Lockfile.Runs
import ReleaseStamp.Proofs.Patcher

/-!
What a run reports against what it wrote. The report is told by the version that
can be read in the lockfile and by the tag alone (`changeOf_eq_updated_iff` and
its neighbours), and so is whether the text changes (`Lockfile.text_eq_self_iff`).
Neither looks at the output or at the policy for a missing package, so runs that
differ in these report the same and write the same (`report_truthful`).
-/
namespace ReleaseStamp.Patcher

variable {p : Patcher} {cwd : Location} {tag text : String} {t t' : FileTree} {stamped : Lockfile.Stamped}

/-! ## Reports -/

theorem changeOf_eq_updated_iff {previous : String} :
    changeOf stamped tag = .updated previous ↔ stamped.previous = some previous ∧ previous ≠ tag := by
  rw [changeOf]
  cases stamped.previous with
  | none => simp
  | some version =>
    by_cases same : version = tag
    · simp only [same, if_true, reduceCtorEq, Option.some.injEq, false_iff, not_and, ne_eq, Decidable.not_not]
      exact Eq.symm
    · simp only [same, if_false, Change.updated.injEq, Option.some.injEq, ne_eq]
      constructor
      · rintro rfl
        exact ⟨rfl, same⟩
      · exact And.left

/-- A report against the text that was read and the bytes that were written. -/
structure Truthful (package tag text : String) (written : ByteArray) (change : Change) : Prop where
  updated : (∃ previous, change = .updated previous) ↔ written ≠ text.toUTF8
  previous : ∀ previous, change = .updated previous →
    Lockfile.version? text package = .ok (some previous) ∧ previous ≠ tag
  unchanged : change = .unchanged ↔ Lockfile.version? text package = .ok (some tag)
  notFound : change = .notFound ↔ Lockfile.version? text package = .ok none
  kept : change = .unchanged ∨ change = .notFound → written = text.toUTF8

theorem truthful_of_stamp {package : String} (made : Lockfile.stamp text package tag = .ok stamped) :
    Truthful package tag text stamped.text.toUTF8 (changeOf stamped tag) := by
  have reads := Lockfile.version?_eq_previous made
  have bytes : stamped.text.toUTF8 = text.toUTF8 ↔ stamped.previous = none ∨ stamped.previous = some tag := by
    rw [← Lockfile.text_eq_self_iff made]
    exact ⟨Content.eq_of_raw_ofText, congrArg String.toUTF8⟩
  refine ⟨?_, ?_, ?_, ?_, ?_⟩
  · simp only [ne_eq, bytes, changeOf_eq_updated_iff]
    cases stamped.previous with
    | none => simp
    | some previous => simp
  · intro previous told
    rw [reads]
    obtain ⟨before, other⟩ := changeOf_eq_updated_iff.mp told
    exact ⟨congrArg Except.ok before, other⟩
  · rw [changeOf_eq_unchanged_iff, reads, Except.ok.injEq]
  · rw [changeOf_eq_notFound_iff, reads, Except.ok.injEq]
  · rw [changeOf_eq_unchanged_iff, changeOf_eq_notFound_iff, bytes]
    exact Or.symm

/-! ## Runs -/

/-- A run that succeeds is the write of the stamped text. -/
theorem Ran.write {change : Change} (ran : Ran p cwd tag t (.ok change) t') :
    ∃ text stamped, t.readText cwd p.lockfile = .ok text ∧ Lockfile.stamp text p.package tag = .ok stamped ∧
      change = changeOf stamped tag ∧ t.write cwd p.outputPath (.bytes stamped.text.toUTF8) = .ok t' := by
  obtain ⟨text, stamped, read, made, -, told, write⟩ := ran.made rfl
  exact ⟨text, stamped, read, made, told, write⟩

/-- The report of a run that succeeds is told by the lockfile that it read: an
    update exactly if it wrote other bytes than it read, the tag as unchanged
    exactly if it was the version already, and a missing package exactly if
    there was no version. Runs from the same files that differ in their output
    or their policy at most report the same and write the same bytes. -/
theorem report_truthful {change : Change} (done : (p.run cwd tag t).1 = .ok change) :
    ∃ text written, t.readText cwd p.lockfile = .ok text ∧
      t.write cwd p.outputPath (.bytes written) = .ok (p.run cwd tag t).2 ∧
      Truthful p.package tag text written change ∧
      ∀ q : Patcher, q.lockfile = p.lockfile → q.package = p.package → ∀ other, (q.run cwd tag t).1 = .ok other →
        other = change ∧ t.write cwd q.outputPath (.bytes written) = .ok (q.run cwd tag t).2 := by
  have ran := run_ran p cwd tag t
  rw [done] at ran
  obtain ⟨text, stamped, read, made, rfl, write⟩ := ran.write
  refine ⟨text, stamped.text.toUTF8, read, write, truthful_of_stamp made, ?_⟩
  intro q lockfile package other succeeds
  have second := run_ran q cwd tag t
  rw [succeeds] at second
  obtain ⟨text', stamped', read', made', rfl, write'⟩ := second.write
  -- Both runs read the same text, and stamping it has one result.
  rw [lockfile, read] at read'
  cases read'
  rw [package, made] at made'
  cases made'
  exact ⟨rfl, write'⟩

/-- The stock patcher, and one that writes beside the lockfile and wants the package. -/
theorem report_truthful_oneLockfile :
    ∃ text written, (stock.run [] "2" oneLockfile).1 = .ok (.updated "1") ∧
      Truthful "ram-machine" "2" text written (.updated "1") ∧
      oneLockfile.write [] alternateOutput (.bytes written) =
        .ok ({ alternate with missing := .fail }.run [] "2" oneLockfile).2 := by
  have done : (stock.run [] "2" oneLockfile).1 = .ok (.updated "1") := by decide +kernel
  obtain ⟨text, written, -, -, truthful, others⟩ := report_truthful done
  have beside : ({ alternate with missing := .fail }.run [] "2" oneLockfile).1 = .ok (.updated "1") := by decide +kernel
  exact ⟨text, written, done, truthful, (others { alternate with missing := .fail } rfl rfl _ beside).2⟩

end ReleaseStamp.Patcher
