import ReleaseStamp.Proofs.Hook.Calls

/-!
Forcing the block on a script. Whatever stood in the script, it is afterwards a
text without BEGIN lines and one block behind it (`install_forced`), which is all
that another installation or an uninstallation needs to know of it
(`force_settles`).
-/
namespace ReleaseStamp.Hook

open Text

variable {t : FileTree} {cwd : Location} {hooks : Path} {text : List Char}

/-- The text that a forced installation puts the block behind. -/
def forcedOn (text : List Char) : List Char := trimEnd (if marked text then stripBlocks text else text)

theorem install_forced (text : List Char) :
    install true (some text) = (if marked text then .replaced else .appended, .write (withBlock (forcedOn text))) := by
  rw [forcedOn, withBlock_trimEnd, install]
  cases marked text <;> rfl

theorem plain_forcedOn (text : List Char) : Plain (forcedOn text) := by
  refine ⟨trimEnd_trimEnd _, ?_⟩
  rw [forcedOn, blankFree_not_isBegin.forall_trimEnd_iff]
  split_ifs with mark
  · rw [forall_stripBlocks_iff blankFree_not_isBegin]
    exact fun line => not_isBegin_of_mem_outside
  · rw [← blankFree_not_isBegin.forall_lines_iff]
    exact fun line => not_isBegin_of_unmarked (Bool.eq_false_iff.mpr mark)

theorem noCrlf_forcedOn (lf : NoCrlf text) : NoCrlf (forcedOn text) := by
  have kept : NoCrlf (if marked text then stripBlocks text else text) := by
    split_ifs
    · exact lf.of_sublist ((outside_sublist false _).trans (lines_sublist lf))
    · exact lf
  exact fun crlf => kept (crlf.trans (trimEnd_isPrefix _).isInfix)

/-- Forcing the block on a marked script changes nothing about uninstalling. -/
theorem uninstall_forcedOn (lf : NoCrlf text) (mark : marked text = true) :
    uninstall (some (withBlock (forcedOn text))) = uninstall (some text) := by
  have kept : lfEnds (forcedOn text) = forcedOn text := lfEnds_eq_self_iff.mpr (noCrlf_forcedOn lf)
  rw [(plain_forcedOn text).uninstall_withBlock, kept, forcedOn, if_pos mark, meaningful_trimEnd, uninstall, mark]
  rfl

/-- From a marked script an uninstallation leaves the same whatever it is applied to. -/
theorem after_uninstall (mark : marked text = true) (one other : Option (List Char)) :
    (uninstall (some text)).2.after one = (uninstall (some text)).2.after other := by
  rw [uninstall, mark]
  cases meaningful (stripBlocks text) <;> rfl

/-- A forced installation settles a script without CRLF: the block is its only
    one and ends it, installing again leaves the text as it is, with force or
    without, and uninstalling does what it would have done to the marked script
    at once. -/
theorem force_settles (reads : Reads t cwd hooks (some text)) (lf : NoCrlf text) :
    ∃ forced t₁ t₂,
      installAt cwd hooks true t = (.ok (if marked text then .replaced else .appended), t₁) ∧
      Reads t₁ cwd hooks (some forced) ∧
      (lines forced).countP isBegin = 1 ∧ block <:+ forced ∧
      installAt cwd hooks true t₁ = (.ok .replaced, t₂) ∧ Reads t₂ cwd hooks (some forced) ∧
      installAt cwd hooks false t₂ = (.ok .already, t₂) ∧
      (marked text = true → ∃ removed left u u₁,
        uninstallAt cwd hooks t = (.ok removed, u) ∧ Reads u cwd hooks left ∧
        uninstallAt cwd hooks t₁ = (.ok removed, u₁) ∧ Reads u₁ cwd hooks left) := by
  have plain := plain_forcedOn text
  have kept : lfEnds (forcedOn text) = forcedOn text := lfEnds_eq_self_iff.mpr (noCrlf_forcedOn lf)
  obtain ⟨t₁, installed, first⟩ := installAt_of_write reads (install_forced text)
  have again := plain.install_withBlock true
  rw [if_pos rfl, kept] at again
  obtain ⟨t₂, replaced, second⟩ := installAt_of_write first.reads again
  have already := installAt_of_keep second.reads (plain.install_withBlock false)
  refine ⟨withBlock (forcedOn text), t₁, t₂, installed, first.reads, plain.countP_withBlock, List.suffix_append _ _,
    replaced, second.reads, already, fun mark => ?_⟩
  obtain ⟨u, removed, left, -⟩ := uninstallAt_of_reads reads
  obtain ⟨u₁, removed₁, left₁, -⟩ := uninstallAt_of_reads first.reads
  rw [uninstall_forcedOn lf mark] at removed₁ left₁
  rw [after_uninstall mark _ (some text)] at left₁
  exact ⟨_, _, u, u₁, removed, left, removed₁, left₁⟩

/-- A script that mentions the mark and ends in a block that is not closed. -/
def brokenText : String :=
  "echo '# >>> lockstamp pre-commit >>>'\n# <<< lockstamp pre-commit <<<\n\t# >>> lockstamp pre-commit >>>\nold\n"

theorem force_settles_broken :
    NoCrlf brokenText.toList ∧ marked brokenText.toList = true ∧
      ∃ forced t₁ t₂, installAt [] ⟨"hooks"⟩ true (hookOf brokenText) = (.ok .replaced, t₁) ∧
        Reads t₁ [] ⟨"hooks"⟩ (some forced) ∧ (lines forced).countP isBegin = 1 ∧
        installAt [] ⟨"hooks"⟩ true t₁ = (.ok .replaced, t₂) ∧ Reads t₂ [] ⟨"hooks"⟩ (some forced) := by
  have lf : NoCrlf brokenText.toList := by decide +kernel
  have mark : marked brokenText.toList = true := by decide +kernel
  obtain ⟨forced, t₁, t₂, installed, first, once, -, again, second, -⟩ := force_settles (reads_hookOf brokenText) lf
  rw [if_pos mark] at installed
  exact ⟨lf, mark, forced, t₁, t₂, installed, first, once, again, second⟩

end ReleaseStamp.Hook
