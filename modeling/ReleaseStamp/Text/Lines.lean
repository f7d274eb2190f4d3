import ReleaseStamp.Text.Blank

/-!
Texts cut into pieces at a separator, and the lines of a text. Cutting loses
nothing: the pieces joined by the separator are the text again (`join_split`).
-/
namespace ReleaseStamp.Text

/-- The piece before the first separator, and the pieces after it. -/
def cut (sep : Char) : List Char → List Char × List (List Char)
  | [] => ([], [])
  | c :: cs =>
    if c = sep then ([], (cut sep cs).1 :: (cut sep cs).2) else (c :: (cut sep cs).1, (cut sep cs).2)

/-- All pieces between the separators, one more than there are separators. -/
def split (sep : Char) (cs : List Char) : List (List Char) := (cut sep cs).1 :: (cut sep cs).2

/-- The pieces with one separator between neighbours. -/
def join (sep : Char) : List (List Char) → List Char
  | [] => []
  | [piece] => piece
  | piece :: next :: rest => piece ++ sep :: join sep (next :: rest)

theorem split_cons_sep (sep : Char) (cs : List Char) : split sep (sep :: cs) = [] :: split sep cs := by
  simp [split, cut]

theorem join_split (sep : Char) (cs : List Char) : join sep (split sep cs) = cs := by
  induction cs with
  | nil => rfl
  | cons c cs ih =>
    by_cases same : c = sep
    · subst same
      rw [split_cons_sep, split, join]
      rw [split] at ih
      simp [ih]
    · simp only [split, cut, if_neg same]
      simp only [split] at ih
      cases rest : (cut sep cs).2 with
      | nil => rw [rest] at ih; simp [join] at ih ⊢; exact ih
      | cons piece more => rw [rest] at ih; simp [join] at ih ⊢; exact ih

/-- No piece holds the separator. -/
theorem not_mem_of_mem_split (sep : Char) (cs : List Char) : ∀ piece ∈ split sep cs, sep ∉ piece := by
  induction cs with
  | nil => simp [split, cut]
  | cons c cs ih =>
    by_cases same : c = sep
    · subst same
      rw [split_cons_sep]
      intro piece member
      rcases List.mem_cons.mp member with rfl | later
      · simp
      · exact ih piece later
    · simp only [split, cut, if_neg same]
      intro piece member
      rcases List.mem_cons.mp member with rfl | later
      · simp only [List.mem_cons, not_or]
        exact ⟨fun equal => same equal.symm, ih _ (List.mem_cons_self ..)⟩
      · exact ih piece (List.mem_cons_of_mem _ later)

/-! ## Lines -/

/-- A terminated line without the carriage return of a CRLF. -/
def chomp (line : List Char) : List Char := if line.getLast? = some '\r' then line.dropLast else line

/-- The lines of a text. A line ends in LF or CRLF; what follows the last LF is
    a line only if it is not empty, and keeps its carriage return. -/
def lines (cs : List Char) : List (List Char) :=
  (split '\n' cs).dropLast.map chomp ++ (split '\n' cs).getLast?.toList.filter (· ≠ [])

/-- The lines with an LF between neighbours. -/
def joinLines (ls : List (List Char)) : List Char := join '\n' ls

/-! ## Occurrences -/

def contains (sought : List Char) : List Char → Bool
  | [] => sought.isEmpty
  | c :: cs => sought.isPrefixOf (c :: cs) || contains sought cs

theorem contains_iff (sought cs : List Char) : contains sought cs = true ↔ sought <:+: cs := by
  induction cs with
  | nil => simp [contains, List.isEmpty_iff]
  | cons c cs ih => simp [contains, ih, List.infix_cons_iff]

end ReleaseStamp.Text
