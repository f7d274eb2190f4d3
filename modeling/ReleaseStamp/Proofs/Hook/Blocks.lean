import ReleaseStamp.Proofs.Hook.Calls

/-!
Scripts of the user's lines and of closed blocks, in any number and order
(`Part`). Outside the blocks stand just the user's lines (`outside_parts`), so
each call on such a script leaves a text that is told from these lines alone
(`calls_on_parts`).
-/
namespace ReleaseStamp.Hook

open Text

/-- A closed block: from a line that begins it to the first that ends it. More
    lines that begin a block may stand between them. -/
structure Block where
  first : List Char
  inner : List (List Char)
  last : List Char
  begins : isBegin first = true
  unclosed : ∀ line ∈ inner, isEnd line = false
  ends : isEnd last = true

def Block.lines (closed : Block) : List (List Char) := closed.first :: (closed.inner ++ [closed.last])

/-- A part of a script. A line of the user may look like the end of a block. -/
inductive Part where
  | user (line : List Char) (plain : isBegin line = false)
  | block (closed : Block)

def Part.lines : Part → List (List Char)
  | user line _ => [line]
  | block closed => closed.lines

def Part.userLines : Part → List (List Char)
  | user line _ => [line]
  | block _ => []

variable {t : FileTree} {cwd : Location} {hooks : Path} {text : List Char} {parts : List Part}

/-- The scanner is outside again behind a closed block. -/
theorem outside_block (closed : Block) (more : List (List Char)) :
    outside false (closed.lines ++ more) = outside false more := by
  have last : isBegin closed.last = false := by
    rw [Bool.eq_false_iff]
    intro begins
    have open_ := not_isEnd_of_isBegin begins
    simp [closed.ends] at open_
  rw [Block.lines, List.cons_append, outside, closed.begins, if_pos rfl, List.append_assoc,
    outside_unclosed closed.unclosed, List.singleton_append, outside, last]
  simp [closed.ends]

theorem outside_parts (parts : List Part) : outside false (parts.flatMap Part.lines) = parts.flatMap Part.userLines := by
  induction parts with
  | nil => rfl
  | cons part parts ih =>
    rw [List.flatMap_cons, List.flatMap_cons, ← ih]
    cases part with
    | user line plain =>
      have alone : ∀ other ∈ [line], isBegin other = false := by simp [plain]
      exact outside_append alone _
    | block closed => exact outside_block closed _

theorem marked_of_closed {closed : Block} (member : .block closed ∈ parts)
    (whole : Text.lines text = parts.flatMap Part.lines) : marked text = true := by
  refine marked_of_isBegin ?_ closed.begins
  rw [whole]
  exact List.mem_flatMap.mpr ⟨_, member, by simp [Part.lines, Block.lines]⟩

/-- The calls on a script with closed blocks. Uninstalling deletes it if every
    line of the user is blank or a shebang, and leaves the user's lines
    otherwise; a forced installation leaves them with one block behind them, and
    one without force leaves everything as it is. -/
theorem calls_on_parts (reads : Reads t cwd hooks (some text)) (spells : Spells (parts.flatMap Part.lines) text)
    {closed : Block} (member : .block closed ∈ parts) :
    ((∀ line ∈ parts.flatMap Part.userLines, trim line = [] ∨ ['#', '!'] <+: line) →
      ∃ t', uninstallAt cwd hooks t = (.ok .deleted, t') ∧ t.removeFile cwd (scriptPath hooks) = .ok t' ∧
        Reads t' cwd hooks none) ∧
    (¬ (∀ line ∈ parts.flatMap Part.userLines, trim line = [] ∨ ['#', '!'] <+: line) →
      ∃ t', uninstallAt cwd hooks t = (.ok .stripped, t') ∧
        Reads t' cwd hooks (some (trimEnd (joinLines (parts.flatMap Part.userLines)) ++ ['\n']))) ∧
    (∃ t', installAt cwd hooks true t = (.ok .replaced, t') ∧
      Executes t' cwd hooks (trimEnd (joinLines (parts.flatMap Part.userLines)) ++ ['\n', '\n'] ++ block)) ∧
    installAt cwd hooks false t = (.ok .already, t) := by
  have whole := spells_iff.mp spells
  have mark := marked_of_closed member whole
  have users : stripBlocks text = joinLines (parts.flatMap Part.userLines) := by
    rw [stripBlocks, whole, outside_parts]
  have worth := meaningful_stripBlocks text
  rw [whole, outside_parts] at worth
  simp only [isIdle_iff] at worth
  rw [← users, ← worth]
  refine ⟨fun idle => ?_, fun some_ => ?_, ?_, ?_⟩
  · apply uninstallAt_of_delete reads
    simp [uninstall, mark, idle]
  · apply uninstallAt_of_write reads
    simp [uninstall, mark, some_]
  · apply installAt_of_write reads
    simp [install, mark, withBlock]
  · apply installAt_of_keep reads
    simp [install, mark]

/-- A block with a second line in it that begins one, and blanks around its marks. -/
def indentedBlock : Block where
  first := "  # >>> lockstamp pre-commit >>>".toList
  inner := ["old".toList, beginMark]
  last := "# <<< lockstamp pre-commit <<<\t".toList
  begins := by decide
  unclosed := by decide
  ends := by decide

/-- The block among the lines of a user, one of which looks like its end. -/
def indentedParts : List Part :=
  [.user "make check".toList (by decide), .user endMark (by decide), .block indentedBlock, .user "last ".toList (by decide)]

def indentedText : String :=
  "make check\r\n# <<< lockstamp pre-commit <<<\n  # >>> lockstamp pre-commit >>>\r\nold\n" ++
    "# >>> lockstamp pre-commit >>>\n# <<< lockstamp pre-commit <<<\t\nlast "

theorem calls_on_parts_indented :
    Spells (indentedParts.flatMap Part.lines) indentedText.toList ∧ .block indentedBlock ∈ indentedParts ∧
    (∃ t', uninstallAt [] ⟨"hooks"⟩ (hookOf indentedText) = (.ok .stripped, t') ∧
      Reads t' [] ⟨"hooks"⟩ (some "make check\n# <<< lockstamp pre-commit <<<\nlast\n".toList)) ∧
    (∃ t', installAt [] ⟨"hooks"⟩ true (hookOf indentedText) = (.ok .replaced, t') ∧
      Executes t' [] ⟨"hooks"⟩ ("make check\n# <<< lockstamp pre-commit <<<\nlast\n\n".toList ++ block)) := by
  have spells : Spells (indentedParts.flatMap Part.lines) indentedText.toList := spells_iff.mpr (by decide +kernel)
  have member : .block indentedBlock ∈ indentedParts := by simp [indentedParts]
  have kept : trimEnd (joinLines (indentedParts.flatMap Part.userLines)) =
      "make check\n# <<< lockstamp pre-commit <<<\nlast".toList := by decide +kernel
  have left : "make check\n# <<< lockstamp pre-commit <<<\nlast".toList ++ ['\n'] =
      "make check\n# <<< lockstamp pre-commit <<<\nlast\n".toList := by decide +kernel
  have parted : "make check\n# <<< lockstamp pre-commit <<<\nlast".toList ++ ['\n', '\n'] =
      "make check\n# <<< lockstamp pre-commit <<<\nlast\n\n".toList := by decide +kernel
  obtain ⟨-, strips, forces, -⟩ := calls_on_parts (reads_hookOf indentedText) spells member
  rw [kept, left] at strips
  rw [kept, parted] at forces
  exact ⟨spells, member, strips (by decide +kernel), forces⟩

end ReleaseStamp.Hook
