import ReleaseStamp.Hook.Script
import ReleaseStamp.Proofs.Text.LineEnds

/-!
The text of a script that holds a user's text and one block behind it. Removing
the block gives the user's text back with one LF (`Plain.stripBlocks_withBlock`),
and what is worth keeping can be told from the user's lines
(`meaningful_eq_false_iff`), so that both calls on such a script are known
(`Plain.install_withBlock`, `Plain.uninstall_withBlock`).
-/
namespace ReleaseStamp.Hook

variable {text more line : List Char} {lines : List (List Char)}

/-! ## Marks -/

theorem marked_iff (text : List Char) : marked text = true ↔ beginMark <:+: text := Text.contains_iff beginMark text

theorem marked_of_infix (within : text <:+: more) (unmarked : marked more = false) : marked text = false := by
  rw [Bool.eq_false_iff, Ne, marked_iff] at unmarked ⊢
  exact fun mark => unmarked (mark.trans within)

/-- The mark does not end in a blank, so a blank at the end is no part of it. -/
theorem marked_append_blank (text : List Char) {c : Char} (blank : Text.isBlank c = true) :
    marked (text ++ [c]) = marked text := by
  rw [Bool.eq_iff_iff, marked_iff, marked_iff, List.infix_concat_iff]
  refine ⟨fun mark => mark.resolve_left ?_, .inr⟩
  intro ending
  have last : beginMark.getLast? = some c := by
    obtain ⟨front, whole⟩ := ending
    have := congrArg List.getLast? whole
    rwa [List.getLast?_append_of_ne_nil _ (by decide), List.getLast?_concat] at this
  rw [show beginMark.getLast? = some '>' by decide] at last
  cases last
  contradiction

theorem marked_concat (text : List Char) : marked (text ++ ['\n']) = marked text :=
  marked_append_blank text Text.isBlank_newline

theorem blankFree_unmarked : Text.BlankFree (marked · = false) where
  empty := by decide
  append_blank := fun line _ blank => by rw [marked_append_blank line blank]

theorem blankFree_not_isBegin : Text.BlankFree (isBegin · = false) where
  empty := by decide
  append_blank := fun line _ blank => by rw [isBegin, isBegin, Text.trim_append_blank line blank]

theorem infix_of_isBegin (begins : isBegin line = true) : beginMark <:+: line := by
  rw [isBegin, beq_iff_eq] at begins
  rw [← begins]
  exact Text.trim_infix line

theorem not_isEnd_of_isBegin (begins : isBegin line = true) : isEnd line = false := by
  rw [isBegin, beq_iff_eq] at begins
  rw [isEnd, begins]
  decide

/-- The mark holds no LF, so it stands in one line of those that are joined. -/
theorem marked_joinLines_iff (lines : List (List Char)) :
    marked (Text.joinLines lines) = true ↔ ∃ line ∈ lines, marked line = true := by
  simp only [marked_iff]
  exact Text.infix_join_iff (by decide) (by decide) lines

theorem unmarked_split_iff (text : List Char) :
    marked text = false ↔ ∀ piece ∈ Text.split '\n' text, marked piece = false := by
  rw [Bool.eq_false_iff, Ne]
  conv_lhs => rw [← Text.join_split '\n' text, ← Text.joinLines, marked_joinLines_iff]
  simp

theorem unmarked_iff (text : List Char) : marked text = false ↔ ∀ line ∈ Text.lines text, marked line = false := by
  rw [unmarked_split_iff, blankFree_unmarked.forall_lines_iff]

theorem marked_trimEnd (text : List Char) : marked (Text.trimEnd text) = marked text := by
  rw [Bool.eq_iff_iff, ← not_iff_not, Bool.not_eq_true, Bool.not_eq_true, unmarked_split_iff, unmarked_split_iff,
    blankFree_unmarked.forall_trimEnd_iff]

/-- No line of an unmarked text begins a block. -/
theorem not_isBegin_of_unmarked (unmarked : marked text = false) (member : line ∈ Text.lines text) :
    isBegin line = false := by
  rw [Bool.eq_false_iff]
  intro begins
  have mark := (marked_iff line).mpr (infix_of_isBegin begins)
  rw [(unmarked_iff text).mp unmarked line member] at mark
  contradiction

theorem marked_of_isBegin (member : line ∈ Text.lines text) (begins : isBegin line = true) : marked text = true := by
  by_contra unmarked
  rw [not_isBegin_of_unmarked (Bool.eq_false_iff.mpr unmarked) member] at begins
  contradiction

theorem countP_isBegin_of_unmarked (unmarked : marked text = false) : (Text.lines text).countP isBegin = 0 := by
  rw [List.countP_eq_zero]
  intro line member
  simp [not_isBegin_of_unmarked unmarked member]

/-! ## Lines worth keeping -/

/-- A text of shebangs and blank lines. -/
def Bare (text : List Char) : Prop := ∀ line ∈ Text.lines text, Text.trim line = [] ∨ ['#', '!'] <+: line

instance (text : List Char) : Decidable (Bare text) := inferInstanceAs (Decidable (∀ _ ∈ _, _))

theorem isIdle_iff (line : List Char) : isIdle line = true ↔ Text.trim line = [] ∨ ['#', '!'] <+: line := by
  simp [isIdle]

/-- A blank at the end of a line is no part of a shebang. -/
theorem blankFree_isIdle : Text.BlankFree (isIdle · = true) where
  empty := by decide
  append_blank := fun line c blank => by
    have other : ['#', '!'] ≠ line ++ [c] := by
      intro same
      have last := congrArg List.getLast? same
      rw [List.getLast?_concat, show ['#', '!'].getLast? = some '!' by decide] at last
      cases last
      contradiction
    rw [isIdle_iff, isIdle_iff, Text.trim_append_blank line blank, List.prefix_concat_iff, or_iff_right other]

theorem bare_iff (text : List Char) : Bare text ↔ meaningful text = false := by
  rw [Bare, meaningful, List.any_eq_false]
  simp [← isIdle_iff]

theorem meaningful_eq_false_iff (text : List Char) :
    meaningful text = false ↔ ∀ piece ∈ Text.split '\n' text, isIdle piece = true := by
  rw [← bare_iff, Bare]
  simp only [← isIdle_iff]
  exact blankFree_isIdle.forall_lines_iff text

theorem meaningful_trimEnd (text : List Char) : meaningful (Text.trimEnd text) = meaningful text := by
  rw [Bool.eq_iff_iff, ← not_iff_not, Bool.not_eq_true, Bool.not_eq_true, meaningful_eq_false_iff,
    meaningful_eq_false_iff, blankFree_isIdle.forall_trimEnd_iff]

theorem meaningful_lfEnds (text : List Char) : meaningful (Text.lfEnds (text ++ ['\n'])) = meaningful text := by
  rw [Bool.eq_iff_iff, ← not_iff_not, Bool.not_eq_true, Bool.not_eq_true, meaningful_eq_false_iff,
    meaningful_eq_false_iff, blankFree_isIdle.forall_lfEnds_iff]

/-! ## Blocks -/

/-- The lines of the block. -/
def blockLines : List (List Char) := Text.lines block

theorem blockLines_removed : outside false blockLines = [] := by decide +kernel

theorem blockLines_begin_once : blockLines.countP isBegin = 1 := by decide +kernel

theorem marked_withBlock (text : List Char) : marked (withBlock text) = true := by
  rw [marked_iff]
  have first : beginMark <:+: block := ⟨[], block.drop beginMark.length, by decide +kernel⟩
  exact first.trans (List.suffix_append _ _).isInfix

theorem outside_append (plain : ∀ line ∈ lines, isBegin line = false)
    (more : List (List Char)) : outside false (lines ++ more) = lines ++ outside false more := by
  induction lines with
  | nil => rfl
  | cons line lines ih =>
    have here := plain line (by simp)
    rw [List.cons_append, outside, here]
    simp only [Bool.false_eq_true, if_false]
    rw [ih fun other member => plain other (by simp [member]), List.cons_append]

/-- In a block nothing is kept up to the line that closes it. -/
theorem outside_unclosed (unclosed : ∀ line ∈ lines, isEnd line = false) (more : List (List Char)) :
    outside true (lines ++ more) = outside true more := by
  induction lines with
  | nil => rfl
  | cons line rest ih =>
    have here := unclosed line (by simp)
    have later := ih fun other member => unclosed other (by simp [member])
    cases begins : isBegin line <;> simp [outside, begins, here, later]

theorem outside_sublist (inside : Bool) (lines : List (List Char)) : (outside inside lines).Sublist lines := by
  induction lines generalizing inside with
  | nil => exact List.Sublist.refl []
  | cons line rest ih =>
    rw [outside]
    split_ifs
    · exact (ih true).cons line
    · exact (ih _).cons line
    · exact (ih false).cons_cons line

/-- Outside the blocks no line begins one. -/
theorem not_isBegin_of_mem_outside {inside : Bool} (member : line ∈ outside inside lines) : isBegin line = false := by
  induction lines generalizing inside with
  | nil => contradiction
  | cons head rest ih =>
    rw [outside] at member
    split_ifs at member with begins
    · exact ih member
    · exact ih member
    · rcases List.mem_cons.mp member with rfl | later
      · exact Bool.eq_false_iff.mpr begins
      · exact ih later

theorem newline_notMem_of_mem_outside {inside : Bool} (member : line ∈ outside inside (Text.lines text)) : '\n' ∉ line :=
  Text.newline_notMem_of_mem_lines ((outside_sublist inside _).subset member)

/-- What is left without the blocks has the lines outside of them. -/
theorem forall_stripBlocks_iff {P : List Char → Prop} (free : Text.BlankFree P) (text : List Char) :
    (∀ piece ∈ Text.split '\n' (stripBlocks text), P piece) ↔ ∀ line ∈ outside false (Text.lines text), P line := by
  rw [stripBlocks, Text.joinLines]
  by_cases none_ : outside false (Text.lines text) = []
  · simp [none_, Text.join, Text.split, Text.cut, free.empty]
  · rw [Text.split_join none_ fun _ => newline_notMem_of_mem_outside]

theorem meaningful_stripBlocks (text : List Char) :
    meaningful (stripBlocks text) = false ↔ ∀ line ∈ outside false (Text.lines text), isIdle line = true := by
  rw [meaningful_eq_false_iff, forall_stripBlocks_iff blankFree_isIdle]

/-- A text without blanks at its end in which no line begins a block. -/
structure Plain (text : List Char) : Prop where
  trimmed : Text.trimEnd text = text
  free : ∀ piece ∈ Text.split '\n' text, isBegin piece = false

theorem Plain.ofLines (free : ∀ line ∈ Text.lines text, isBegin line = false) : Plain (Text.trimEnd text) where
  trimmed := Text.trimEnd_trimEnd text
  free := by rwa [blankFree_not_isBegin.forall_trimEnd_iff, ← blankFree_not_isBegin.forall_lines_iff]

theorem withBlock_trimEnd (text : List Char) : withBlock (Text.trimEnd text) = withBlock text := by
  rw [withBlock, withBlock, Text.trimEnd_trimEnd]

theorem withBlock_concat (text : List Char) : withBlock (text ++ ['\n']) = withBlock text := by
  rw [withBlock, withBlock, Text.trimEnd_append_blank text (by simp [Text.isBlank_newline])]

theorem install_unmarked (unmarked : marked text = false) (force : Bool) :
    install force (some text) = (.appended, .write (withBlock text)) := by
  rw [install, unmarked]
  rfl

namespace Plain

theorem lines_withBlock (plain : Plain text) :
    Text.lines (withBlock text) = (Text.split '\n' text).map Text.chomp ++ [] :: blockLines := by
  have whole : withBlock text = text ++ '\n' :: ([] ++ '\n' :: block) := by
    rw [withBlock, plain.trimmed]
    simp
  rw [whole, Text.lines_append, Text.lines_append]
  rfl

theorem not_isBegin_chomp (plain : Plain text) :
    ∀ line ∈ (Text.split '\n' text).map Text.chomp, isBegin line = false := by
  rw [List.forall_mem_map]
  exact fun piece member => (blankFree_not_isBegin.chomp piece).mpr (plain.free piece member)

theorem countP_withBlock (plain : Plain text) : (Text.lines (withBlock text)).countP isBegin = 1 := by
  have user : ((Text.split '\n' text).map Text.chomp).countP isBegin = 0 := by
    rw [List.countP_eq_zero]
    intro line member
    simp [plain.not_isBegin_chomp line member]
  have empty : isBegin [] = false := by decide
  rw [plain.lines_withBlock, List.countP_append, user, List.countP_cons, empty, blockLines_begin_once]
  rfl

theorem stripBlocks_withBlock (plain : Plain text) : stripBlocks (withBlock text) = Text.lfEnds (text ++ ['\n']) := by
  have user : ∀ line ∈ (Text.split '\n' text).map Text.chomp ++ [[]], isBegin line = false := by
    rw [List.forall_mem_append]
    exact ⟨plain.not_isBegin_chomp, by decide⟩
  rw [stripBlocks, plain.lines_withBlock, List.append_cons, outside_append user, blockLines_removed, List.append_nil,
    Text.joinLines_chomp]

theorem trimEnd_stripBlocks (plain : Plain text) : Text.trimEnd (stripBlocks (withBlock text)) = Text.lfEnds text := by
  rw [plain.stripBlocks_withBlock, Text.lfEnds_concat plain.trimmed,
    Text.trimEnd_append_blank _ (by simp [Text.isBlank_newline]), Text.trimEnd_lfEnds plain.trimmed]

/-- Forcing the block on a script that ends in it. -/
theorem install_withBlock (plain : Plain text) (force : Bool) :
    install force (some (withBlock text)) =
      if force then (.replaced, .write (withBlock (Text.lfEnds text))) else (.already, .keep) := by
  rw [install, marked_withBlock, ← withBlock_trimEnd (stripBlocks _), plain.trimEnd_stripBlocks]
  rfl

theorem uninstall_withBlock (plain : Plain text) :
    uninstall (some (withBlock text)) =
      if meaningful text then (.stripped, .write (Text.lfEnds text ++ ['\n'])) else (.deleted, .delete) := by
  rw [uninstall, marked_withBlock, plain.trimEnd_stripBlocks, plain.stripBlocks_withBlock, meaningful_lfEnds]
  rfl

end Plain

/-! ## The text that is kept -/

/-- A user's text as a script keeps it: without blanks at the end, without
    CRLF and without a mark. -/
structure Kept (text : List Char) : Prop where
  trimmed : Text.trimEnd text = text
  lf : Text.NoCrlf text
  unmarked : marked text = false

theorem Kept.shebang : Kept shebang := ⟨by decide, by decide, by decide⟩

theorem Kept.ofUser (unmarked : marked text = false) (lf : Text.NoCrlf text) : Kept (Text.trimEnd text) where
  trimmed := Text.trimEnd_trimEnd text
  lf := fun crlf => lf (crlf.trans (Text.trimEnd_isPrefix text).isInfix)
  unmarked := marked_of_infix (Text.trimEnd_isPrefix text).isInfix unmarked

theorem Kept.plain (kept : Kept text) : Plain text := by
  have plain := Plain.ofLines fun _ => not_isBegin_of_unmarked kept.unmarked
  rwa [kept.trimmed] at plain

theorem Kept.lfEnds_eq (kept : Kept text) : Text.lfEnds text = text := Text.lfEnds_eq_self_iff.mpr kept.lf

end ReleaseStamp.Hook
