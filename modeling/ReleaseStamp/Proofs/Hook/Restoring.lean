import ReleaseStamp.Proofs.Hook.Calls

/-!
Installing into a user's script and uninstalling again. The script is cut into
lines for this and joined again, so what comes back is the user's text with an LF
for every CRLF and one LF at its end: the text itself exactly if it holds no CRLF
and ends in one LF behind something to be seen (`install_uninstall`).
-/
namespace ReleaseStamp.Hook

open Text

variable {t : FileTree} {cwd : Location} {hooks : Path} {text : List Char}

/-- What comes back is the user's text if it only wants its blanks and CRLFs. -/
theorem lfEnds_trimEnd_eq_iff : lfEnds (trimEnd text) ++ ['\n'] = text ↔ NoCrlf text ∧ trimEnd text ++ ['\n'] = text := by
  have trimmed := trimEnd_trimEnd text
  constructor
  · intro back
    have kept : lfEnds (trimEnd text) = trimEnd text := by
      have ends := congrArg trimEnd back
      rwa [trimEnd_append_blank _ (by simp [isBlank_newline]), trimEnd_lfEnds trimmed] at ends
    have whole := lfEnds_concat trimmed
    rw [kept] at back whole
    rw [back] at whole
    exact ⟨lfEnds_eq_self_iff.mp whole, back⟩
  · rintro ⟨lf, back⟩
    have kept : NoCrlf (trimEnd text) := fun crlf => lf (crlf.trans (trimEnd_isPrefix text).isInfix)
    rw [lfEnds_eq_self_iff.mpr kept, back]

/-- A script without the mark in which something is worth keeping is the user's
    again after an installation and an uninstallation: without the blanks at its
    end, with one LF there, and with an LF for every CRLF. So it is left with its
    own line ends exactly if there is no CRLF in front of these blanks. -/
theorem install_uninstall (reads : Reads t cwd hooks (some text)) (unmarked : marked text = false) (worth : ¬ Bare text)
    (force : Bool) :
    ∃ t₁ t₂, installAt cwd hooks force t = (.ok .appended, t₁) ∧ uninstallAt cwd hooks t₁ = (.ok .stripped, t₂) ∧
      Reads t₂ cwd hooks (some (lfEnds (trimEnd text) ++ ['\n'])) ∧
      (Reads t₂ cwd hooks (some (trimEnd text ++ ['\n'])) ↔ NoCrlf (trimEnd text)) ∧
      (Reads t₂ cwd hooks (some text) ↔ NoCrlf text ∧ trimEnd text ++ ['\n'] = text) := by
  have plain : Plain (trimEnd text) := .ofLines fun _ => not_isBegin_of_unmarked unmarked
  rw [bare_iff, Bool.not_eq_false] at worth
  have edit : uninstall (some (withBlock (trimEnd text))) = (.stripped, .write (lfEnds (trimEnd text) ++ ['\n'])) := by
    rw [plain.uninstall_withBlock, meaningful_trimEnd, worth]
    rfl
  obtain ⟨t₁, installed, executes⟩ := installAt_of_write reads (install_unmarked unmarked force)
  rw [← withBlock_trimEnd] at executes
  obtain ⟨t₂, stripped, left⟩ := uninstallAt_of_write executes.reads edit
  have only : ∀ other, Reads t₂ cwd hooks (some other) ↔ lfEnds (trimEnd text) ++ ['\n'] = other := by
    intro other
    constructor
    · intro same
      exact Option.some.inj (left.unique same)
    · rintro rfl
      exact left
  refine ⟨t₁, t₂, installed, stripped, left, ?_, ?_⟩
  · rw [only, List.append_left_inj, lfEnds_eq_self_iff]
  · rw [only, lfEnds_trimEnd_eq_iff]

theorem install_uninstall_mixedEnds :
    ∃ t₁ t₂, installAt [] ⟨"hooks"⟩ true (hookOf "make\r\n\r\r\nlint\u0085\r\n\n") = (.ok .appended, t₁) ∧
      uninstallAt [] ⟨"hooks"⟩ t₁ = (.ok .stripped, t₂) ∧ Reads t₂ [] ⟨"hooks"⟩ (some "make\n\r\nlint\n".toList) := by
  obtain ⟨t₁, t₂, installed, stripped, left, -, -⟩ := install_uninstall (reads_hookOf "make\r\n\r\r\nlint\u0085\r\n\n")
    (by decide +kernel) (by decide +kernel) true
  have back : lfEnds (trimEnd "make\r\n\r\r\nlint\u0085\r\n\n".toList) ++ ['\n'] = "make\n\r\nlint\n".toList := by
    decide +kernel
  rw [back] at left
  exact ⟨t₁, t₂, installed, stripped, left⟩

/-- A script with CRLF at its lines comes back with LF. -/
theorem uninstall_alters_line_ends :
    marked "#!/bin/sh\r\nmake check\r\n".toList = false ∧ ¬ Bare "#!/bin/sh\r\nmake check\r\n".toList ∧
      ∃ t₁ t₂, installAt [] ⟨"hooks"⟩ false (hookOf "#!/bin/sh\r\nmake check\r\n") = (.ok .appended, t₁) ∧
        uninstallAt [] ⟨"hooks"⟩ t₁ = (.ok .stripped, t₂) ∧
        Reads t₂ [] ⟨"hooks"⟩ (some "#!/bin/sh\nmake check\n".toList) ∧
        ¬ Reads t₂ [] ⟨"hooks"⟩ (some (trimEnd "#!/bin/sh\r\nmake check\r\n".toList ++ ['\n'])) := by
  have appends : install false (some "#!/bin/sh\r\nmake check\r\n".toList) =
      (.appended, .write (withBlock "#!/bin/sh\r\nmake check\r\n".toList)) := install_unmarked (by decide +kernel) false
  have strips : uninstall (some (withBlock "#!/bin/sh\r\nmake check\r\n".toList)) =
      (.stripped, .write "#!/bin/sh\nmake check\n".toList) := by decide +kernel
  obtain ⟨t₁, installed, executes⟩ := installAt_of_write (reads_hookOf "#!/bin/sh\r\nmake check\r\n") appends
  obtain ⟨t₂, stripped, left⟩ := uninstallAt_of_write executes.reads strips
  refine ⟨by decide +kernel, by decide +kernel, t₁, t₂, installed, stripped, left, fun same => ?_⟩
  have altered := left.unique same
  revert altered
  decide +kernel

end ReleaseStamp.Hook
