import ReleaseStamp.Proofs.Hook.Calls

/-!
What a call takes for a block. The calls look for the mark anywhere in the
script, but only a line that is the mark begins a block; so a line that merely
mentions the mark is taken for one as well, and still is after an uninstallation
(`detection_iff`). Detection and removal agree where no such line is.
-/
namespace ReleaseStamp.Hook

open Text

variable {t : FileTree} {cwd : Location} {hooks : Path} {text : List Char} {current : Option (List Char)}

/-- Some line of the script begins a block. -/
def Opened (text : List Char) : Prop := ∃ line ∈ lines text, isBegin line = true

/-- Some line outside the blocks has the mark in it. -/
def Mentions (text : List Char) : Prop := ∃ line ∈ outside false (lines text), marked line = true

instance (text : List Char) : Decidable (Opened text) := inferInstanceAs (Decidable (∃ _ ∈ _, _))

instance (text : List Char) : Decidable (Mentions text) := inferInstanceAs (Decidable (∃ _ ∈ _, _))

/-- Where no line begins a block every line is outside of blocks. -/
theorem outside_of_not_opened (unopened : ¬ Opened text) : outside false (lines text) = lines text := by
  have plain : ∀ line ∈ lines text, isBegin line = false := by simpa [Opened] using unopened
  have whole := outside_append plain []
  rwa [List.append_nil, outside, List.append_nil] at whole

/-- The mark is in a script if one of its lines begins a block or mentions it. -/
theorem marked_iff_or (text : List Char) : marked text = true ↔ Opened text ∨ Mentions text := by
  constructor
  · intro mark
    by_cases opened : Opened text
    · exact .inl opened
    · have some_ : ¬ ∀ line ∈ lines text, marked line = false := by
        rw [← unmarked_iff, mark]
        decide
      rw [Mentions, outside_of_not_opened opened]
      exact .inr (by simpa using some_)
  · rintro (⟨line, member, begins⟩ | ⟨line, member, mark⟩)
    · exact marked_of_isBegin member begins
    · by_contra unmarked
      rw [Bool.not_eq_true, unmarked_iff] at unmarked
      rw [unmarked line ((outside_sublist false _).subset member)] at mark
      contradiction

/-- What is left of a script without its blocks has the mark where a line mentioned it. -/
theorem marked_left_iff (text : List Char) :
    marked (trimEnd (stripBlocks text) ++ ['\n']) = true ↔ Mentions text := by
  rw [marked_concat, marked_trimEnd, stripBlocks, marked_joinLines_iff, Mentions]

/-! ## Outcomes -/

theorem install_already_iff (text : List Char) : (install false (some text)).1 = .already ↔ marked text = true := by
  rw [install]
  cases marked text <;> simp

theorem install_keep_iff (text : List Char) :
    (install false (some text)).2 = .keep ↔ (install false (some text)).1 = .already := by
  rw [install]
  cases marked text <;> simp

theorem uninstall_notInstalled_iff (current : Option (List Char)) :
    (uninstall current).1 = .notInstalled ↔ ∀ text ∈ current, marked text = false := by
  cases current with
  | none => simp [uninstall]
  | some text =>
    rw [uninstall]
    cases mark : marked text <;> cases meaningful (stripBlocks text) <;> simp [mark]

theorem uninstall_removes_iff (text : List Char) :
    (uninstall (some text)).1 = .stripped ∨ (uninstall (some text)).1 = .deleted ↔ marked text = true := by
  rw [uninstall]
  cases marked text <;> cases meaningful (stripBlocks text) <;> simp

theorem uninstall_keep_iff (current : Option (List Char)) :
    (uninstall current).2 = .keep ↔ (uninstall current).1 = .notInstalled := by
  cases current with
  | none => simp [uninstall]
  | some text =>
    rw [uninstall]
    cases marked text <;> cases meaningful (stripBlocks text) <;> simp

/-- Another uninstallation finds nothing if the first deleted the script, or left
    no line that mentions the mark. -/
theorem uninstall_again_iff (text : List Char) :
    (uninstall ((uninstall (some text)).2.after (some text))).1 = .notInstalled ↔
      (uninstall (some text)).1 = .deleted ∨ ¬ Mentions text := by
  rw [uninstall_notInstalled_iff, uninstall]
  cases mark : marked text with
  | false =>
    have none_ : ¬ Mentions text := fun mentions => by simp [(marked_iff_or text).mpr (.inr mentions)] at mark
    simp [Edit.after, mark, none_]
  | true => cases meaningful (stripBlocks text) <;> simp [Edit.after, ← marked_left_iff]

/-- The calls on a script with a text. An installation without force finds the
    block installed, and an uninstallation removes something, exactly if a line
    begins a block or one outside the blocks mentions the mark; a second
    uninstallation finds nothing exactly if the first deleted the script or no
    line mentions the mark. A call that finds nothing to do changes nothing, but
    an uninstallation writes the lines of a script that only mentions the mark
    anew. -/
theorem detection_iff (reads : Reads t cwd hooks (some text)) :
    ∃ found removed again t₁ t₂ t₃,
      installAt cwd hooks false t = (.ok found, t₁) ∧ uninstallAt cwd hooks t = (.ok removed, t₂) ∧
      uninstallAt cwd hooks t₂ = (.ok again, t₃) ∧
      (found = .already ↔ Opened text ∨ Mentions text) ∧
      (removed = .stripped ∨ removed = .deleted ↔ Opened text ∨ Mentions text) ∧
      (again = .notInstalled ↔ removed = .deleted ∨ ¬ Mentions text) ∧
      (found = .already → t₁ = t) ∧ (removed = .notInstalled → t₂ = t) ∧ (again = .notInstalled → t₃ = t₂) ∧
      (found ≠ .already → found = .appended ∧ Reads t₁ cwd hooks (some (withBlock text))) ∧
      (¬ Opened text → removed = .stripped → Reads t₂ cwd hooks (some (trimEnd (joinLines (lines text)) ++ ['\n']))) := by
  obtain ⟨t₁, installed, holds, same₁⟩ := installAt_of_reads reads false
  obtain ⟨t₂, removed, left, same₂⟩ := uninstallAt_of_reads reads
  obtain ⟨t₃, again, -, same₃⟩ := uninstallAt_of_reads left
  rw [install_keep_iff] at same₁
  rw [uninstall_keep_iff] at same₂ same₃
  refine ⟨_, _, _, t₁, t₂, t₃, installed, removed, again, ?_, ?_, uninstall_again_iff text, same₁, same₂, same₃, ?_, ?_⟩
  · rw [install_already_iff, marked_iff_or]
  · rw [uninstall_removes_iff, marked_iff_or]
  · intro appends
    rw [Ne, install_already_iff, Bool.not_eq_true] at appends
    rw [install_unmarked appends] at holds ⊢
    exact ⟨rfl, holds⟩
  · intro unopened stripped
    obtain ⟨_, here, -, edit⟩ := uninstall_stripped stripped
    cases here
    rw [edit, stripBlocks, outside_of_not_opened unopened] at left
    exact left

theorem detection_iff_mention :
    ∃ removed again t₁ t₂ t₃,
      installAt [] ⟨"hooks"⟩ false (hookOf "echo '# >>> lockstamp pre-commit >>>'\r\n") = (.ok .already, t₁) ∧
      uninstallAt [] ⟨"hooks"⟩ (hookOf "echo '# >>> lockstamp pre-commit >>>'\r\n") = (.ok removed, t₂) ∧
      (removed = .stripped ∨ removed = .deleted) ∧ uninstallAt [] ⟨"hooks"⟩ t₂ = (.ok again, t₃) := by
  have mentions : Mentions "echo '# >>> lockstamp pre-commit >>>'\r\n".toList := by decide +kernel
  obtain ⟨found, removed, again, t₁, t₂, t₃, first, second, third, already, removes, -⟩ :=
    detection_iff (reads_hookOf "echo '# >>> lockstamp pre-commit >>>'\r\n")
  rw [already.mpr (.inr mentions)] at first
  exact ⟨removed, again, t₁, t₂, t₃, first, second, removes.mpr (.inr mentions), third⟩

/-- A line that mentions the mark is taken for a block, and no block is installed. -/
theorem install_mistakes_mention :
    installAt [] ⟨"hooks"⟩ false (hookOf "#!/bin/sh\necho '# >>> lockstamp pre-commit >>>'\n") =
        (.ok .already, hookOf "#!/bin/sh\necho '# >>> lockstamp pre-commit >>>'\n") ∧
      ¬ Opened "#!/bin/sh\necho '# >>> lockstamp pre-commit >>>'\n".toList := by
  have keeps : install false (some "#!/bin/sh\necho '# >>> lockstamp pre-commit >>>'\n".toList) = (.already, .keep) := by
    decide +kernel
  exact ⟨installAt_of_keep (reads_hookOf _) keeps, by decide +kernel⟩

end ReleaseStamp.Hook
