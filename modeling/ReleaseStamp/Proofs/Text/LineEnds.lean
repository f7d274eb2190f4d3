import Mathlib.Data.List.DropRight
import Mathlib.Data.List.Infix
import ReleaseStamp.Proofs.Text.Lines

/-!
What stands at the ends of lines. The lines of a text are those that it is
written as, each with an LF or a CRLF behind it (`spells_iff`). A property that
does not see blanks at the end of a line holds of the lines of a text, of its
pieces and of what is left when the text is trimmed alike (`BlankFree`). Cutting
a text into lines and joining them again makes every CRLF an LF
(`joinLines_chomp`) and changes nothing else.
-/
namespace ReleaseStamp.Text

variable {cs front : List Char} {line more : List Char} {pieces : List (List Char)}

/-! ## Lines as they are written -/

/-- Lines and the text that they are written as: each line is followed by LF or
    CRLF, and the last one need not be. -/
inductive Spells : List (List Char) → List Char → Prop where
  | nil : Spells [] []
  | open_ {line : List Char} : line ≠ [] → '\n' ∉ line → Spells [line] line
  | lf {line more : List Char} {rest : List (List Char)} :
      '\n' ∉ line → line.getLast? ≠ some '\r' → Spells rest more → Spells (line :: rest) (line ++ '\n' :: more)
  | crlf {line more : List Char} {rest : List (List Char)} :
      '\n' ∉ line → Spells rest more → Spells (line :: rest) (line ++ '\r' :: '\n' :: more)

theorem lines_of_notMem (clear : '\n' ∉ cs) : lines cs = if cs = [] then [] else [cs] := by
  rw [lines, split_of_notMem clear]
  by_cases none_ : cs = []
  · simp [none_]
  · simp [none_]

theorem lines_line (clear : '\n' ∉ line) (more : List Char) : lines (line ++ '\n' :: more) = chomp line :: lines more := by
  rw [lines_append, split_of_notMem clear]
  rfl

theorem chomp_return (line : List Char) : chomp (line ++ ['\r']) = line := by
  rw [chomp, List.getLast?_concat, if_pos rfl, List.dropLast_concat]

theorem lines_of_spells (spells : Spells pieces cs) : lines cs = pieces := by
  induction spells with
  | nil => rfl
  | open_ some_ clear => rw [lines_of_notMem clear, if_neg some_]
  | lf clear other _ ih => rw [lines_line clear, chomp, if_neg other, ih]
  | @crlf line more rest clear _ ih =>
    have longer : '\n' ∉ line ++ ['\r'] := by simp [clear]
    rw [List.append_cons, lines_line longer, chomp_return, ih]

/-- Every text is written as its lines. -/
theorem spells_lines (cs : List Char) : Spells (lines cs) cs := by
  have clear := not_mem_of_mem_split '\n' cs
  rw [← join_split '\n' cs]
  generalize split '\n' cs = pieces at clear
  induction pieces with
  | nil => exact .nil
  | cons piece pieces ih =>
    have here := clear piece (by simp)
    cases pieces with
    | nil =>
      rw [join, lines_of_notMem here]
      split_ifs with none_
      · rw [none_]
        exact .nil
      · exact .open_ none_ here
    | cons next rest =>
      have later := ih fun other member => clear other (by simp [member])
      rw [join, lines_line here, chomp]
      split_ifs with returned
      · obtain ⟨front, rfl⟩ := List.getLast?_eq_some_iff.mp returned
        rw [List.dropLast_concat, List.append_assoc]
        exact .crlf (fun member => here (by simp [member])) later
      · exact .lf here returned later

theorem spells_iff : Spells pieces cs ↔ lines cs = pieces :=
  ⟨lines_of_spells, fun same => same ▸ spells_lines cs⟩

/-! ## Properties that do not see blanks -/

/-- A character that does not separate pieces goes to the last of them. -/
theorem split_concat {sep c : Char} (other : c ≠ sep) {first : List (List Char)} {last : List Char}
    (whole : split sep cs = first ++ [last]) : split sep (cs ++ [c]) = first ++ [last ++ [c]] := by
  have longer : cs ++ [c] = join sep (first ++ [last ++ [c]]) := by
    rw [← join_split sep cs, whole]
    by_cases none_ : first = []
    · simp [none_, join]
    · rw [join_append none_ (by simp), join_append none_ (by simp)]
      simp [join]
  rw [longer, split_join (by simp)]
  have clear := not_mem_of_mem_split sep cs
  rw [whole] at clear
  intro piece member
  rcases List.mem_append.mp member with inside | end_
  · exact clear piece (by simp [inside])
  · rw [List.mem_singleton.mp end_, List.mem_append, List.mem_singleton, not_or]
    exact ⟨clear last (by simp), other.symm⟩

theorem exists_split_eq (sep : Char) (cs : List Char) : ∃ first last, split sep cs = first ++ [last] :=
  ⟨_, _, (List.dropLast_append_getLast (split_ne_nil sep cs)).symm⟩

/-- A property of lines that the empty line has, and that blanks at the end of a
    line do not change. -/
structure BlankFree (P : List Char → Prop) : Prop where
  empty : P []
  append_blank : ∀ (line : List Char) (c : Char), isBlank c = true → (P (line ++ [c]) ↔ P line)

namespace BlankFree

variable {P : List Char → Prop}

theorem chomp (free : BlankFree P) (line : List Char) : P (chomp line) ↔ P line := by
  rw [Text.chomp]
  split_ifs with returned
  · obtain ⟨front, rfl⟩ := List.getLast?_eq_some_iff.mp returned
    rw [List.dropLast_concat, free.append_blank front '\r' isBlank_return]
  · rfl

/-- The lines of a text are its pieces without some blanks. -/
theorem forall_lines_iff (free : BlankFree P) (cs : List Char) :
    (∀ line ∈ lines cs, P line) ↔ ∀ piece ∈ split '\n' cs, P piece := by
  obtain ⟨first, last, whole⟩ := exists_split_eq '\n' cs
  have final : (∀ line ∈ [last].filter (· ≠ []), P line) ↔ P last := by
    by_cases none_ : last = []
    · simp [none_, free.empty]
    · simp [none_]
  rw [lines, whole, List.dropLast_concat, List.getLast?_concat, Option.toList_some, List.forall_mem_append, final,
    List.forall_mem_append, List.forall_mem_singleton, List.forall_mem_map]
  simp only [free.chomp]

theorem forall_concat_iff (free : BlankFree P) (cs : List Char) {c : Char} (blank : isBlank c = true) :
    (∀ piece ∈ split '\n' (cs ++ [c]), P piece) ↔ ∀ piece ∈ split '\n' cs, P piece := by
  by_cases newline : c = '\n'
  · rw [newline, split_append, List.forall_mem_append]
    simp [split, cut, free.empty]
  · obtain ⟨first, last, whole⟩ := exists_split_eq '\n' cs
    rw [split_concat newline whole, whole, List.forall_mem_append, List.forall_mem_append, List.forall_mem_singleton,
      List.forall_mem_singleton, free.append_blank last c blank]

/-- Trimming a text takes nothing but blanks from its pieces. -/
theorem forall_trimEnd_iff (free : BlankFree P) (cs : List Char) :
    (∀ piece ∈ split '\n' (trimEnd cs), P piece) ↔ ∀ piece ∈ split '\n' cs, P piece := by
  induction cs using List.reverseRecOn with
  | nil => rfl
  | append_singleton cs c ih =>
    cases blank : isBlank c with
    | true => rw [trimEnd_append_blank cs (by simp [blank]), ih, free.forall_concat_iff cs blank]
    | false =>
      have kept : trimEnd (cs ++ [c]) = cs ++ [c] := by
        rw [trimEnd_append_of_seen (by simp [trimEnd, blank])]
        simp [trimEnd, blank]
      rw [kept]

end BlankFree

/-! ## LF for CRLF -/

/-- The text with an LF in the place of every CRLF. -/
def lfEnds : List Char → List Char
  | '\r' :: '\n' :: cs => '\n' :: lfEnds cs
  | c :: cs => c :: lfEnds cs
  | [] => []

theorem chomp_cons {c : Char} (longer : line ≠ []) : chomp (c :: line) = c :: chomp line := by
  obtain ⟨d, rest, rfl⟩ := List.exists_cons_of_ne_nil longer
  rw [chomp, chomp, List.getLast?_cons_cons, List.dropLast_cons_of_ne_nil (by simp)]
  split_ifs <;> rfl

theorem lfEnds_append_line (clear : '\n' ∉ line) (more : List Char) :
    lfEnds (line ++ '\n' :: more) = chomp line ++ '\n' :: lfEnds more := by
  induction line with
  | nil => simp [lfEnds, chomp]
  | cons c line ih =>
    have later := ih fun member => clear (by simp [member])
    cases line with
    | nil =>
      by_cases returned : c = '\r'
      · simp [returned, lfEnds, chomp]
      · simp [returned, lfEnds, chomp]
    | cons d line =>
      have other : d ≠ '\n' := by
        rintro rfl
        simp at clear
      have onward : lfEnds (c :: (d :: line ++ '\n' :: more)) = c :: lfEnds (d :: line ++ '\n' :: more) := by
        rw [List.cons_append, lfEnds]
        rintro _ - same
        exact other (List.cons.inj same).1
      rw [chomp_cons (by simp), List.cons_append, onward, later, List.cons_append]

/-- The pieces of a text are its lines once the carriage returns in front of the
    LFs are gone. -/
theorem lfEnds_concat_eq (cs : List Char) : lfEnds (cs ++ ['\n']) = (split '\n' cs).flatMap (chomp · ++ ['\n']) := by
  have clear := not_mem_of_mem_split '\n' cs
  rw [← flatMap_split]
  generalize split '\n' cs = pieces at clear
  induction pieces with
  | nil => rfl
  | cons piece pieces ih =>
    have later := ih fun other member => clear other (by simp [member])
    rw [List.flatMap_cons, List.flatMap_cons, List.append_assoc, List.singleton_append,
      lfEnds_append_line (clear piece (by simp)), later]
    simp

theorem joinLines_chomp (cs : List Char) : joinLines ((split '\n' cs).map chomp ++ [[]]) = lfEnds (cs ++ ['\n']) := by
  have some_ : (split '\n' cs).map chomp ≠ [] := by simp [split_ne_nil]
  rw [joinLines, join_append some_ (by simp), show join '\n' [[]] = [] from rfl, join_concat some_, lfEnds_concat_eq,
    List.flatMap_map]

theorem BlankFree.forall_lfEnds_iff {P : List Char → Prop} (free : BlankFree P) (cs : List Char) :
    (∀ piece ∈ split '\n' (lfEnds (cs ++ ['\n'])), P piece) ↔ ∀ piece ∈ split '\n' cs, P piece := by
  have clear : ∀ piece ∈ (split '\n' cs).map Text.chomp ++ [[]], '\n' ∉ piece := by
    rw [List.forall_mem_append, List.forall_mem_map]
    exact ⟨fun piece member within => not_mem_of_mem_split '\n' cs piece member ((chomp_isPrefix piece).subset within), by simp⟩
  rw [← joinLines_chomp, joinLines, split_join (by simp) clear, List.forall_mem_append, List.forall_mem_map,
    List.forall_mem_singleton, and_iff_left free.empty]
  simp only [free.chomp]

theorem lfEnds_eq_self_iff : lfEnds cs = cs ↔ NoCrlf cs := by
  rw [NoCrlf]
  fun_induction lfEnds cs with
  | case1 cs ih => simp [List.infix_cons_iff]
  | case2 c cs plain ih =>
    have first : ¬ ['\r', '\n'] <+: c :: cs := by
      rintro ⟨rest, same⟩
      obtain ⟨same, behind⟩ := List.cons.inj same
      exact plain rest same.symm behind.symm
    rw [List.infix_cons_iff, or_iff_right first, ← ih]
    simp
  | case3 => simp

theorem getLast?_lfEnds (cs : List Char) : (lfEnds cs).getLast? = cs.getLast? := by
  fun_induction lfEnds cs with
  | case1 cs ih => rw [List.getLast?_cons, List.getLast?_cons_cons, List.getLast?_cons, ih]
  | case2 c cs plain ih => rw [List.getLast?_cons, List.getLast?_cons, ih]
  | case3 => rfl

theorem trimEnd_lfEnds (trimmed : trimEnd cs = cs) : trimEnd (lfEnds cs) = lfEnds cs := by
  refine List.rdropWhile_eq_self_iff.mpr fun filled => ?_
  obtain ⟨front, c, whole⟩ := (List.eq_nil_or_concat' _).resolve_left filled
  have last := getLast?_lfEnds cs
  rw [whole, List.getLast?_concat, eq_comm, List.getLast?_eq_some_iff] at last
  obtain ⟨_, ends⟩ := last
  simp [whole, not_isBlank_of_trimEnd trimmed ends]

theorem lfEnds_append (ends : cs.getLast? ≠ some '\r') (more : List Char) : lfEnds (cs ++ more) = lfEnds cs ++ lfEnds more := by
  fun_induction lfEnds cs with
  | case1 cs ih =>
    rw [List.cons_append, List.cons_append, lfEnds, List.cons_append, ih]
    intro last
    simp [List.getLast?_cons, last] at ends
  | case2 c cs plain ih =>
    cases cs with
    | nil =>
      have other : c ≠ '\r' := by simpa using ends
      simp [lfEnds, other]
    | cons d cs =>
      have later := ih (by simpa [List.getLast?_cons] using ends)
      rw [List.cons_append, List.cons_append, lfEnds, List.cons_append, ← later, List.cons_append]
      rintro _ returned same
      exact plain cs returned (by simp [(List.cons.inj same).1])
  | case3 => rfl

/-- A trimmed text does not end in a carriage return. -/
theorem lfEnds_concat (trimmed : trimEnd cs = cs) : lfEnds (cs ++ ['\n']) = lfEnds cs ++ ['\n'] := by
  apply lfEnds_append
  intro returned
  obtain ⟨front, ends⟩ := List.getLast?_eq_some_iff.mp returned
  have blank := not_isBlank_of_trimEnd trimmed ends
  simp [isBlank_return] at blank

/-! ## Texts without CRLF -/

theorem crlf_infix_iff (clear : '\n' ∉ line) :
    ['\r', '\n'] <:+: line ++ '\n' :: more ↔ line.getLast? = some '\r' ∨ ['\r', '\n'] <:+: more := by
  induction line with
  | nil => simp [List.infix_cons_iff]
  | cons c line ih =>
    rw [List.cons_append, List.infix_cons_iff, ih fun member => clear (by simp [member])]
    cases line with
    | nil => simp [eq_comm]
    | cons d line =>
      have other : '\n' ≠ d := by
        rintro rfl
        simp at clear
      simp [other, List.getLast?_cons]

/-- Lines without LF make a CRLF where a line in front of another ends in a
    carriage return. -/
theorem noCrlf_joinLines_iff (clear : ∀ line ∈ pieces, '\n' ∉ line) :
    NoCrlf (joinLines pieces) ↔ ∀ line ∈ pieces.dropLast, line.getLast? ≠ some '\r' := by
  rw [NoCrlf, joinLines]
  induction pieces with
  | nil => simp [join]
  | cons line pieces ih =>
    have here := clear line (by simp)
    cases pieces with
    | nil =>
      have whole : ¬ ['\r', '\n'] <:+: line := fun within => here (within.subset (by simp))
      simp [join, whole]
    | cons next rest =>
      have later := ih fun other member => clear other (by simp [member])
      rw [join, crlf_infix_iff here, not_or, later, List.dropLast_cons_cons, List.forall_mem_cons]

theorem dropLast_sublist_dropLast {α : Type} {shorter longer : List α} (within : shorter.Sublist longer) :
    shorter.dropLast.Sublist longer.dropLast := by
  rw [← List.reverse_sublist, ← List.tail_reverse, ← List.tail_reverse]
  exact (List.reverse_sublist.mpr within).tail

/-- Dropping lines makes no CRLF. -/
theorem NoCrlf.of_sublist {kept : List (List Char)} (lf : NoCrlf cs) (within : kept.Sublist (split '\n' cs)) :
    NoCrlf (joinLines kept) := by
  have clear := not_mem_of_mem_split '\n' cs
  rw [← join_split '\n' cs, ← joinLines, noCrlf_joinLines_iff clear] at lf
  rw [noCrlf_joinLines_iff fun line member => clear line (within.subset member)]
  exact fun line member => lf line ((dropLast_sublist_dropLast within).subset member)

theorem lines_sublist (lf : NoCrlf cs) : (lines cs).Sublist (split '\n' cs) := by
  obtain ⟨first, last, whole⟩ := exists_split_eq '\n' cs
  rw [← join_split '\n' cs, ← joinLines, noCrlf_joinLines_iff (not_mem_of_mem_split '\n' cs), whole,
    List.dropLast_concat] at lf
  have same : first.map chomp = first := by
    conv_rhs => rw [← List.map_id first]
    exact List.map_congr_left fun line member => by rw [chomp, if_neg (lf line member), id]
  rw [lines, whole, List.dropLast_concat, List.getLast?_concat, Option.toList_some, same]
  exact List.Sublist.append (List.Sublist.refl first) List.filter_sublist

end ReleaseStamp.Text
