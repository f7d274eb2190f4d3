import Mathlib.Data.List.DropRight
import ReleaseStamp.Proofs.Hook.Edits
import ReleaseStamp.Proofs.Hook.Script

/-!
What is left of a user's lines when the blocks are removed from a script. A line
is the program's if it lies in a block that an END line closes; the scanner
drops these lines, and with them whatever stands behind a BEGIN line that no
END line follows (`userLines_eq`). The user keeps everything exactly where
nothing of worth stands there (`user_lines_kept_iff`).
-/
namespace ReleaseStamp.Hook

open Text

/-! ## Whose line it is -/

/-- Some BEGIN line has no END line behind it. -/
def Opens (front : List (List Char)) : Prop :=
  ∃ before line within, front = before ++ line :: within ∧ isBegin line = true ∧ ∀ inner ∈ within, isEnd inner = false

/-- A line is the program's if it begins a block, or stands between a BEGIN line
    and the next END line, which counts as well. -/
def IsOurs (front : List (List Char)) (line : List Char) (behind : List (List Char)) : Prop :=
  isBegin line = true ∨ Opens front ∧ ∃ last ∈ line :: behind, isEnd last = true

variable {front behind rest lines : List (List Char)} {line : List Char}

theorem opens_concat_iff : Opens (front ++ [line]) ↔ isBegin line = true ∨ isEnd line = false ∧ Opens front := by
  constructor
  · rintro ⟨before, first, within, whole, begins, open_⟩
    rcases List.eq_nil_or_concat within with rfl | ⟨within, last, rfl⟩
    · obtain ⟨-, same⟩ := List.append_inj' whole rfl
      cases same
      exact .inl begins
    · rw [List.concat_eq_append, ← List.cons_append, ← List.append_assoc] at whole
      obtain ⟨rfl, same⟩ := List.append_inj' whole rfl
      cases same
      exact .inr ⟨open_ _ (by simp), before, first, within, rfl, begins, fun inner member => open_ inner (by simp [member])⟩
  · rintro (begins | ⟨unclosed, before, first, within, rfl, begins, open_⟩)
    · exact ⟨front, line, [], rfl, begins, by simp⟩
    · refine ⟨before, first, within ++ [line], by simp, begins, ?_⟩
      intro inner member
      rcases List.mem_append.mp member with inside | last
      · exact open_ inner inside
      · rwa [List.mem_singleton.mp last]

theorem not_opens_nil : ¬ Opens [] := by
  rintro ⟨before, first, within, whole, -⟩
  simp at whole

/-- A script is read line by line, with what is before each line at hand. -/
theorem opens_iff : Opens front ↔ ((front.rtakeWhile (!isEnd ·)).any isBegin) = true := by
  induction front using List.reverseRecOn with
  | nil => simp [not_opens_nil]
  | append_singleton front line ih =>
    rw [opens_concat_iff, ih]
    cases ends : isEnd line with
    | true =>
      have other : isBegin line = false := by
        rw [Bool.eq_false_iff]
        intro begins
        simp [not_isEnd_of_isBegin begins] at ends
      rw [List.rtakeWhile_concat, ends]
      simp [other]
    | false =>
      rw [List.rtakeWhile_concat, ends]
      simp [or_comm]

instance (front : List (List Char)) : Decidable (Opens front) := decidable_of_iff _ opens_iff.symm

instance (front behind : List (List Char)) (line : List Char) : Decidable (IsOurs front line behind) :=
  inferInstanceAs (Decidable (_ ∨ _))

/-- The lines that are chosen by what stands before and behind them. -/
def choose (chosen : List (List Char) → List Char → List (List Char) → Bool) :
    List (List Char) → List (List Char) → List (List Char)
  | _, [] => []
  | front, line :: behind =>
    if chosen front line behind then line :: choose chosen (front ++ [line]) behind
    else choose chosen (front ++ [line]) behind

def userLines (lines : List (List Char)) : List (List Char) :=
  choose (fun front line behind => ¬ IsOurs front line behind) [] lines

/-- The user's lines behind a BEGIN line that no END line follows. -/
def abandoned (lines : List (List Char)) : List (List Char) :=
  choose (fun front line behind => ¬ IsOurs front line behind ∧ Opens front) [] lines

/-- In a block that no line closes, nothing is kept. -/
theorem outside_eq_nil (unclosed : ∀ line ∈ rest, isEnd line = false) : outside true rest = [] := by
  have nothing := outside_unclosed unclosed []
  rwa [List.append_nil] at nothing

theorem choose_user_eq (front rest : List (List Char)) :
    choose (fun front line behind => ¬ IsOurs front line behind) front rest =
      outside (Opens front) rest ++ choose (fun front line behind => ¬ IsOurs front line behind ∧ Opens front) front rest := by
  induction rest generalizing front with
  | nil => rfl
  | cons line behind ih =>
    have onward := ih (front ++ [line])
    rw [choose, choose, onward]
    by_cases begins : isBegin line = true
    · have ours : IsOurs front line behind := .inl begins
      have opened : Opens (front ++ [line]) := opens_concat_iff.mpr (.inl begins)
      simp [ours, opened, outside, begins]
    by_cases open_ : Opens front
    · by_cases closed : ∃ last ∈ line :: behind, isEnd last = true
      · have ours : IsOurs front line behind := .inr ⟨open_, closed⟩
        have still : Opens (front ++ [line]) ↔ isEnd line = false := by simp [opens_concat_iff, begins, open_]
        simp [ours, open_, still, outside, begins]
      · -- The block is never closed: the line and all that follow it are abandoned.
        have theirs : ¬ IsOurs front line behind := fun ours => closed (ours.resolve_left begins).2
        have unclosed : ∀ other ∈ line :: behind, isEnd other = false := by simpa using closed
        have opened : Opens (front ++ [line]) := opens_concat_iff.mpr (.inr ⟨unclosed line (by simp), open_⟩)
        have nothing := outside_eq_nil fun other member => unclosed other (List.mem_cons_of_mem _ member)
        simp [theirs, open_, opened, nothing, outside, begins, unclosed line (by simp)]
    · have theirs : ¬ IsOurs front line behind := fun ours => open_ (ours.resolve_left begins).1
      have still : ¬ Opens (front ++ [line]) := by simp [opens_concat_iff, begins, open_]
      simp [theirs, open_, still, outside, begins]

/-- All of the user's lines are outside the blocks, but for the abandoned ones. -/
theorem userLines_eq (lines : List (List Char)) : userLines lines = outside false lines ++ abandoned lines := by
  have whole := choose_user_eq [] lines
  rwa [decide_eq_false not_opens_nil] at whole

/-! ## The text of the lines -/

theorem forall_mem_joinLines_iff {lines : List (List Char)} :
    (∀ c ∈ joinLines lines, isBlank c = true) ↔ ∀ line ∈ lines, trim line = [] := by
  have inside : (∀ c ∈ joinLines lines, isBlank c = true) ↔ ∀ c, c ≠ '\n' → c ∈ joinLines lines → isBlank c = true := by
    refine ⟨fun blank c _ => blank c, fun blank c member => ?_⟩
    by_cases newline : c = '\n'
    · rw [newline, isBlank_newline]
    · exact blank c newline member
  simp only [inside, trim_eq_nil_iff]
  constructor
  · intro blank line member c within
    by_cases newline : c = '\n'
    · rw [newline, isBlank_newline]
    · exact blank c newline ((mem_join_iff newline lines).mpr ⟨line, member, within⟩)
  · intro blank c newline member
    obtain ⟨line, there, within⟩ := (mem_join_iff newline lines).mp member
    exact blank line there c within

/-- Lines at the end of a text are trimmed off exactly if all of them are blank. -/
theorem trimEnd_joinLines_append_iff {front back : List (List Char)} :
    trimEnd (joinLines (front ++ back)) = trimEnd (joinLines front) ↔ ∀ line ∈ back, trim line = [] := by
  rw [← forall_mem_joinLines_iff]
  by_cases none_ : back = []
  · simp [none_, joinLines, join]
  by_cases first : front = []
  · have empty : trimEnd (joinLines []) = [] := rfl
    rw [first, List.nil_append, empty, trimEnd_eq_nil_iff]
  · rw [joinLines, join_append first none_, ← joinLines, ← joinLines, trimEnd_append_eq_iff]
    simp [isBlank_newline]

theorem trimEnd_userLines_iff (lines : List (List Char)) :
    trimEnd (joinLines (outside false lines)) = trimEnd (joinLines (userLines lines)) ↔
      ∀ line ∈ abandoned lines, trim line = [] := by
  rw [userLines_eq, eq_comm, trimEnd_joinLines_append_iff]

/-! ## What the user keeps -/

/-- A forced installation and an uninstallation leave the user's lines but for
    the abandoned ones, with the blanks at their end trimmed off. So the text of
    the user's lines is left whole if and only if every abandoned line is blank,
    and a script that is deleted held nothing of the user's but blank lines and
    shebangs if and only if this is true of the abandoned lines. -/
theorem user_lines_kept_iff (cwd : Location) (hooks : Path) (t t' : FileTree) :
    (installAt cwd hooks true t = (.ok .replaced, t') →
      ∃ between text kept, FileM.makeDirectories cwd hooks t = (.ok (), between) ∧
        between.readText cwd (scriptPath hooks) = .ok text ∧
        userLines (Text.lines text.toList) = kept ++ abandoned (Text.lines text.toList) ∧
        t'.readText cwd (scriptPath hooks) = .ok (String.ofList (withBlock (joinLines kept))) ∧
        (withBlock (joinLines kept) = withBlock (joinLines (userLines (Text.lines text.toList))) ↔
          ∀ line ∈ abandoned (Text.lines text.toList), trim line = [])) ∧
    (uninstallAt cwd hooks t = (.ok .stripped, t') →
      ∃ text kept, t.readText cwd (scriptPath hooks) = .ok text ∧
        userLines (Text.lines text.toList) = kept ++ abandoned (Text.lines text.toList) ∧
        t'.readText cwd (scriptPath hooks) = .ok (String.ofList (trimEnd (joinLines kept) ++ ['\n'])) ∧
        (trimEnd (joinLines kept) = trimEnd (joinLines (userLines (Text.lines text.toList))) ↔
          ∀ line ∈ abandoned (Text.lines text.toList), trim line = [])) ∧
    (uninstallAt cwd hooks t = (.ok .deleted, t') →
      ∃ text kept, t.readText cwd (scriptPath hooks) = .ok text ∧
        userLines (Text.lines text.toList) = kept ++ abandoned (Text.lines text.toList) ∧
        (∀ line ∈ kept, trim line = [] ∨ ['#', '!'] <+: line) ∧
        ((∀ line ∈ userLines (Text.lines text.toList), trim line = [] ∨ ['#', '!'] <+: line) ↔
          ∀ line ∈ abandoned (Text.lines text.toList), trim line = [] ∨ ['#', '!'] <+: line)) := by
  refine ⟨fun done => ?_, fun done => ?_, fun done => ?_⟩
  · obtain ⟨between, current, made, read, outcome, left⟩ := installAt_eq_ok done
    obtain ⟨_, rfl, -, edit⟩ := install_replaced outcome.symm
    obtain ⟨text, there, rfl⟩ := readText_of_readScript read
    refine ⟨between, text, _, made, there, userLines_eq _, left _ edit, ?_⟩
    rw [withBlock, withBlock, List.append_left_inj, List.append_left_inj]
    exact trimEnd_userLines_iff _
  · obtain ⟨current, read, outcome, left⟩ := uninstallAt_eq_ok done
    obtain ⟨_, rfl, -, edit⟩ := uninstall_stripped outcome.symm
    obtain ⟨text, there, rfl⟩ := readText_of_readScript read
    exact ⟨text, _, there, userLines_eq _, left _ edit, trimEnd_userLines_iff _⟩
  · obtain ⟨current, read, outcome, -⟩ := uninstallAt_eq_ok done
    obtain ⟨_, rfl, -, idle⟩ := uninstall_deleted outcome.symm
    obtain ⟨text, there, rfl⟩ := readText_of_readScript read
    have kept := (meaningful_stripBlocks text.toList).mp idle
    simp only [← isIdle_iff]
    refine ⟨text, _, there, userLines_eq _, kept, ?_⟩
    simp only [userLines_eq, List.mem_append, or_imp, forall_and]
    exact and_iff_right kept

/-- Behind a user's line a block with a second BEGIN line in it, and one that is
    not closed. -/
def editedHook : FileTree :=
  hookOf <| "make\n# >>> lockstamp pre-commit >>>\n# >>> lockstamp pre-commit >>>\n" ++
    "# <<< lockstamp pre-commit <<<\n# >>> lockstamp pre-commit >>>\nold\n"

theorem user_lines_kept_iff_editedHook :
    ∃ t' text kept, uninstallAt [] ⟨"hooks"⟩ editedHook = (.ok .stripped, t') ∧
      editedHook.readText [] (scriptPath ⟨"hooks"⟩) = .ok text ∧
      userLines (Text.lines text.toList) = kept ++ abandoned (Text.lines text.toList) ∧
      t'.readText [] (scriptPath ⟨"hooks"⟩) = .ok (String.ofList (trimEnd (joinLines kept) ++ ['\n'])) := by
  have done : (uninstallAt [] ⟨"hooks"⟩ editedHook).1 = .ok .stripped := by decide +kernel
  rcases run : uninstallAt [] ⟨"hooks"⟩ editedHook with ⟨answer, t'⟩
  rw [run] at done
  cases done
  obtain ⟨text, kept, read, users, written, -⟩ := (user_lines_kept_iff [] ⟨"hooks"⟩ editedHook t').2.1 run
  exact ⟨t', text, kept, rfl, read, users, written⟩

/-- Behind a BEGIN line that no END line follows a line of the user is deleted
    with the script. -/
theorem uninstall_loses_line :
    (uninstallAt [] ⟨"hooks"⟩ (hookOf "#!/bin/sh\n# >>> lockstamp pre-commit >>>\nmake check\n")).1 = .ok .deleted ∧
      "make check".toList ∈
        userLines (Text.lines "#!/bin/sh\n# >>> lockstamp pre-commit >>>\nmake check\n".toList) ∧
      ¬ (trim "make check".toList = [] ∨ ['#', '!'] <+: "make check".toList) := by
  refine ⟨by decide +kernel, by decide +kernel, by decide⟩

end ReleaseStamp.Hook
