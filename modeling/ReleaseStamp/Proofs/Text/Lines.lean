import Mathlib.Data.List.DropRight
import Mathlib.Data.List.Infix
import ReleaseStamp.Text.Lines

/-!
Pieces and lines of texts that are put together (`split_append`,
`lines_append`), what stands in one of them (`infix_join_iff`), and the blanks
at the end of a text.
-/
namespace ReleaseStamp.Text

/-! ## Pieces -/

theorem split_ne_nil (sep : Char) (cs : List Char) : split sep cs ≠ [] := by
  simp [split]

/-- With a separator after each piece, joining is appending. -/
theorem join_concat {sep : Char} {pieces : List (List Char)} (some_ : pieces ≠ []) :
    join sep pieces ++ [sep] = pieces.flatMap (· ++ [sep]) := by
  induction pieces with
  | nil => exact absurd rfl some_
  | cons piece pieces ih =>
    cases pieces with
    | nil => simp [join]
    | cons next rest =>
      have later := ih (by simp)
      rw [List.flatMap_cons, ← later]
      simp [join]

theorem flatMap_split (sep : Char) (cs : List Char) : (split sep cs).flatMap (· ++ [sep]) = cs ++ [sep] := by
  rw [← join_concat (split_ne_nil sep cs), join_split]

theorem join_append {sep : Char} {front back : List (List Char)} (one : front ≠ []) (two : back ≠ []) :
    join sep (front ++ back) = join sep front ++ sep :: join sep back := by
  refine List.append_cancel_right (?_ : _ ++ [sep] = _ ++ [sep])
  rw [join_concat (by simp [one]), List.flatMap_append, ← join_concat one, ← join_concat two]
  simp

theorem join_cons_ne_nil {sep : Char} {piece : List Char} {rest : List (List Char)} (filled : piece ≠ [] ∨ rest ≠ []) :
    join sep (piece :: rest) ≠ [] := by
  cases rest with
  | nil => simpa [join] using filled
  | cons next rest => simp [join]

theorem join_isPrefix {sep : Char} {front pieces : List (List Char)} (begins : front <+: pieces) :
    join sep front <+: join sep pieces := by
  obtain ⟨back, rfl⟩ := begins
  by_cases one : front = []
  · simp [one, join]
  by_cases two : back = []
  · simp [two]
  · rw [join_append one two]
    exact List.prefix_append ..

theorem split_append (sep : Char) (cs more : List Char) :
    split sep (cs ++ sep :: more) = split sep cs ++ split sep more := by
  induction cs with
  | nil => exact split_cons_sep sep more
  | cons c cs ih =>
    simp only [split, List.cons_append] at ih ⊢
    obtain ⟨first, later⟩ := List.cons.inj ih
    by_cases same : c = sep
    · simp [cut, same, first, later]
    · simp [cut, same, first, later]

/-- What holds no separator and stands around one stands on one side of it. -/
theorem infix_append_sep_iff {sep : Char} {sought front back : List Char} (open_ : sep ∉ sought) :
    sought <:+: front ++ sep :: back ↔ sought <:+: front ∨ sought <:+: back := by
  have behind : ∀ {part : List Char}, sep ∉ part → part <+: sep :: back → part = [] := by
    intro part clear first
    rcases List.prefix_cons_iff.mp first with none_ | ⟨rest, rfl, -⟩
    · exact none_
    · simp at clear
  rw [List.infix_append_iff, List.infix_cons_iff]
  constructor
  · rintro (before | (first | after) | ⟨one, two, rfl, ending, first⟩)
    · exact .inl before
    · rw [behind open_ first]
      exact .inl (List.nil_infix)
    · exact .inr after
    · rw [behind (fun member => open_ (by simp [member])) first, List.append_nil]
      exact .inl ending.isInfix
  · rintro (before | after)
    · exact .inl before
    · exact .inr (.inl (.inr after))

theorem infix_join_iff {sep : Char} {sought : List Char} (filled : sought ≠ []) (open_ : sep ∉ sought)
    (pieces : List (List Char)) : sought <:+: join sep pieces ↔ ∃ piece ∈ pieces, sought <:+: piece := by
  induction pieces with
  | nil => simp [join, filled]
  | cons piece pieces ih =>
    cases pieces with
    | nil => simp [join]
    | cons next rest =>
      rw [join, infix_append_sep_iff open_, ih]
      simp

theorem mem_join_iff {sep c : Char} (other : c ≠ sep) (pieces : List (List Char)) :
    c ∈ join sep pieces ↔ ∃ piece ∈ pieces, c ∈ piece := by
  induction pieces with
  | nil => simp [join]
  | cons piece pieces ih =>
    cases pieces with
    | nil => simp [join]
    | cons next rest =>
      rw [join, List.mem_append, List.mem_cons, ih, or_iff_right other]
      simp

theorem split_of_notMem {sep : Char} {cs : List Char} (whole : sep ∉ cs) : split sep cs = [cs] := by
  induction cs with
  | nil => rfl
  | cons c cs ih =>
    have later := ih fun member => whole (by simp [member])
    have ne : c ≠ sep := by
      rintro rfl
      simp at whole
    simp only [split] at later ⊢
    obtain ⟨first, none_⟩ := List.cons.inj later
    simp [cut, ne, first, none_]

/-- Pieces without the separator are the pieces of the text that joins them. -/
theorem split_join {sep : Char} {pieces : List (List Char)} (some_ : pieces ≠ []) (whole : ∀ piece ∈ pieces, sep ∉ piece) :
    split sep (join sep pieces) = pieces := by
  induction pieces with
  | nil => exact absurd rfl some_
  | cons piece pieces ih =>
    have here := split_of_notMem (whole piece (by simp))
    cases pieces with
    | nil => exact here
    | cons next rest =>
      have later := ih (by simp) fun other member => whole other (by simp [member])
      rw [join, split_append, here, later, List.singleton_append]

/-! ## Blanks -/

theorem trimEnd_isPrefix (cs : List Char) : trimEnd cs <+: cs := List.rdropWhile_prefix isBlank cs

theorem trim_infix (cs : List Char) : trim cs <:+: cs :=
  (List.dropWhile_suffix isBlank).isInfix.trans (trimEnd_isPrefix cs).isInfix

theorem trimEnd_append_blank (cs : List Char) {blanks : List Char} (blank : ∀ c ∈ blanks, isBlank c = true) :
    trimEnd (cs ++ blanks) = trimEnd cs := by
  rw [trimEnd, trimEnd, List.reverse_append, List.dropWhile_append_of_pos]
  intro c member
  exact blank c (List.mem_reverse.mp member)

theorem trim_append_blank (line : List Char) {c : Char} (blank : isBlank c = true) : trim (line ++ [c]) = trim line := by
  rw [trim, trim, trimEnd_append_blank line (by simp [blank])]

theorem trimEnd_trimEnd (cs : List Char) : trimEnd (trimEnd cs) = trimEnd cs := List.rdropWhile_idempotent isBlank cs

/-- A trimmed text does not end in a blank. -/
theorem not_isBlank_of_trimEnd {cs front : List Char} {c : Char} (trimmed : trimEnd cs = cs) (ends : cs = front ++ [c]) :
    isBlank c = false := by
  have last := List.rdropWhile_eq_self_iff.mp trimmed (by simp [ends])
  simpa [ends] using last

theorem trimEnd_eq_nil_iff {cs : List Char} : trimEnd cs = [] ↔ ∀ c ∈ cs, isBlank c = true :=
  List.rdropWhile_eq_nil_iff

theorem trim_eq_nil_iff {cs : List Char} : trim cs = [] ↔ ∀ c ∈ cs, isBlank c = true := by
  rw [trim, trimStart, List.dropWhile_eq_nil_iff]
  constructor
  · intro blank
    have empty := trimEnd_eq_nil_iff.mpr blank
    rw [trimEnd_trimEnd] at empty
    exact trimEnd_eq_nil_iff.mp empty
  · intro blank
    simp [trimEnd_eq_nil_iff.mpr blank]

theorem trimEnd_append_of_seen {cs more : List Char} (seen : trimEnd more ≠ []) :
    trimEnd (cs ++ more) = cs ++ trimEnd more := by
  rw [trimEnd, ne_eq, List.reverse_eq_nil_iff] at seen
  rw [trimEnd, trimEnd, List.reverse_append, List.dropWhile_append]
  simp [seen]

/-- What is appended to a text is trimmed off again exactly if it is blank. -/
theorem trimEnd_append_eq_iff {cs more : List Char} :
    trimEnd (cs ++ more) = trimEnd cs ↔ ∀ c ∈ more, isBlank c = true := by
  constructor
  · intro same
    by_contra seen
    have kept : trimEnd more ≠ [] := fun empty => seen (trimEnd_eq_nil_iff.mp empty)
    have longer := congrArg List.length ((trimEnd_append_of_seen kept).symm.trans same)
    have shorter := (trimEnd_isPrefix cs).length_le
    have some_ := List.length_pos_iff.mpr kept
    rw [List.length_append] at longer
    omega
  · exact trimEnd_append_blank cs

/-! ## Lines -/

theorem chomp_isPrefix (line : List Char) : chomp line <+: line := by
  rw [chomp]
  split_ifs
  · exact List.dropLast_prefix line
  · exact List.prefix_rfl

/-- No line of the text ends in CRLF. -/
def NoCrlf (cs : List Char) : Prop := ¬ ['\r', '\n'] <:+: cs

instance (cs : List Char) : Decidable (NoCrlf cs) := inferInstanceAs (Decidable (¬ _))

/-- The lines of a text that goes on after an LF. -/
theorem lines_append (cs more : List Char) : lines (cs ++ '\n' :: more) = (split '\n' cs).map chomp ++ lines more := by
  have some_ := split_ne_nil '\n' more
  rw [lines, lines, split_append, List.dropLast_append_of_ne_nil some_, List.map_append,
    List.getLast?_append_of_ne_nil _ some_, List.append_assoc]

theorem newline_notMem_of_mem_lines {cs line : List Char} (member : line ∈ lines cs) : '\n' ∉ line := by
  rw [lines, List.mem_append] at member
  rcases member with ended | last
  · obtain ⟨piece, inside, rfl⟩ := List.mem_map.mp ended
    have whole := not_mem_of_mem_split '\n' cs piece (List.mem_of_mem_dropLast inside)
    exact fun newline => whole ((chomp_isPrefix piece).subset newline)
  · have inside := (List.mem_filter.mp last).1
    rw [Option.mem_toList] at inside
    exact not_mem_of_mem_split '\n' cs line (List.mem_of_getLast? inside)

end ReleaseStamp.Text
