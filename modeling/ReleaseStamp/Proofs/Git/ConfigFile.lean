import ReleaseStamp.Git.ConfigFile
import ReleaseStamp.Proofs.Text.Lines

/-!
Config files of the form that git itself writes: sections, and below each its
variables, one on a line. Read again, such a file has the settings that were
written (`parse_render`).
-/
namespace ReleaseStamp.Git.ConfigFile

/-- A section of a config file: its variables, each with its value. -/
structure Section where
  name : String
  assignments : List (String × String)

namespace Section

def line (assignment : String × String) : List Char :=
  '\t' :: assignment.1.toList ++ ' ' :: '=' :: ' ' :: assignment.2.toList

def lines (s : Section) : List (List Char) := ('[' :: s.name.toList ++ [']']) :: s.assignments.map line

/-- What the variables of the section are set to. -/
def settings (s : Section) : List Setting :=
  s.assignments.map fun (key, value) => ⟨s.name.toList ++ '.' :: key.toList, some value.toList⟩

end Section

/-- The text of a config file with the sections. -/
def render (sections : List Section) : String :=
  String.ofList ((sections.flatMap Section.lines).flatMap (· ++ ['\n']))

/-! ## Plain sections -/

/-- A name in lower case, without anything that would need quotes. -/
structure PlainName (name : String) : Prop where
  filled : name.toList ≠ []
  key : ∀ c ∈ name.toList, isKeyChar c = true
  lower : lower name.toList = name.toList

/-- Characters that would open or end something in a value. -/
def specials : List Char := ['"', '\\', '#', ';']

/-- A value that stands for itself: without blanks at its ends, controls, quotes,
    escapes and comments. -/
structure PlainValue (value : String) : Prop where
  filled : value.toList ≠ []
  visible : ∀ c ∈ value.toList, 32 ≤ c.toNat ∧ c ∉ specials
  begins : ∀ c, value.toList.head? = some c → isBlank c = false
  ends : ∀ c, value.toList.getLast? = some c → isBlank c = false

structure Section.Plain (s : Section) : Prop where
  name : PlainName s.name
  assignments : ∀ assignment ∈ s.assignments, PlainName assignment.1 ∧ PlainValue assignment.2

/-! ## Reading them again -/

variable {file : Path} {heading : List Char} {number : Nat} {rest : List (List Char)}

theorem isBlank_eq_false_of_isKeyChar {c : Char} (key : isKeyChar c = true) : isBlank c = false := by
  by_contra blank
  simp only [isBlank, Bool.not_eq_false, Bool.or_eq_true, beq_iff_eq, Bool.and_eq_true, decide_eq_true_eq] at blank
  rcases blank with rfl | ⟨low, high⟩
  · revert key
    decide
  · have control : c.toNat = 9 ∨ c.toNat = 10 ∨ c.toNat = 11 ∨ c.toNat = 12 ∨ c.toNat = 13 := by omega
    rw [← Char.ofNat_toNat c] at key
    rcases control with at_ | at_ | at_ | at_ | at_ <;> rw [at_] at key <;> revert key <;> decide

theorem ne_of_isKeyChar {c other : Char} (key : isKeyChar c = true) (none_ : isKeyChar other = false) : c ≠ other := by
  rintro rfl
  simp [key] at none_

theorem notMem_specials_of_isKeyChar {c : Char} (key : isKeyChar c = true) : c ∉ specials := by
  intro special
  simp only [specials, List.mem_cons, List.not_mem_nil, or_false] at special
  rcases special with rfl | rfl | rfl | rfl <;> revert key <;> decide

theorem takeWhile_key {name : String} (plain : PlainName name) {c : Char} (stop : isKeyChar c = false)
    (after : List Char) : (name.toList ++ c :: after).takeWhile isKeyChar = name.toList := by
  rw [List.takeWhile_append_of_pos plain.key, List.takeWhile_cons_of_neg (by simp [stop]), List.append_nil]

theorem header_plain {name : String} (plain : PlainName name) :
    header ('[' :: name.toList ++ [']']) = .ok (name.toList, []) := by
  have stop : isKeyChar ']' = false := by decide
  have inside : (name.toList ++ [']']).takeWhile (fun c => isKeyChar c || c == '.') = name.toList := by
    rw [List.takeWhile_append_of_pos fun c member => by simp [plain.key c member]]
    simp [stop]
  simp [header, inside, plain.lower]

theorem uncomment_plain {cs : List Char} (open_ : ∀ c ∈ cs, c ∉ specials) : uncomment false cs = cs := by
  induction cs with
  | nil => rfl
  | cons c cs ih =>
    have here := open_ c List.mem_cons_self
    simp only [specials, List.mem_cons, List.not_mem_nil, or_false, not_or] at here
    obtain ⟨quote, slash, hash, semicolon⟩ := here
    have later := ih fun d member => open_ d (List.mem_cons_of_mem _ member)
    cases cs with
    | nil => simp [uncomment, quote, hash, semicolon]
    | cons d cs =>
      rw [uncomment.eq_def]
      split
      · contradiction
      · next same =>
        cases same
        contradiction
      · next same =>
        cases same
        simp [quote, hash, semicolon, later]

theorem unescape_plain {cs : List Char} (open_ : ∀ c ∈ cs, c ∉ specials) : unescape cs = .ok cs := by
  induction cs with
  | nil => rfl
  | cons c cs ih =>
    have here := open_ c List.mem_cons_self
    simp only [specials, List.mem_cons, List.not_mem_nil, or_false, not_or] at here
    obtain ⟨quote, slash, -, -⟩ := here
    have later := ih fun d member => open_ d (List.mem_cons_of_mem _ member)
    rw [unescape.eq_def]
    split
    · contradiction
    · next same =>
      cases same
      contradiction
    · next same =>
      cases same
      simp [quote, later, Except.map]

theorem trimEnd_of_ends {cs : List Char} (ends : ∀ c, cs.getLast? = some c → isBlank c = false) : trimEnd cs = cs := by
  rcases List.eq_nil_or_concat' cs with rfl | ⟨front, c, rfl⟩
  · rfl
  · simp [trimEnd, ends c (by simp)]

theorem continued_plain {line : List Char} (ends : line.getLast? ≠ some '\\') : continued line rest = (line, 0) := by
  have none_ : line.reverse.takeWhile (· == '\\') = [] := by
    rcases List.eq_nil_or_concat' line with rfl | ⟨front, c, rfl⟩
    · rfl
    · simp only [List.getLast?_append, List.getLast?_singleton, Option.some_or, ne_eq, Option.some.injEq] at ends
      simp [ends]
  cases rest with
  | nil => rfl
  | cons next rest => simp [continued, none_]

theorem PlainValue.trimEnd {value : String} (plain : PlainValue value) (front : List Char) :
    ConfigFile.trimEnd (front ++ value.toList) = front ++ value.toList := by
  refine trimEnd_of_ends fun c last => plain.ends c ?_
  rwa [List.getLast?_append_of_ne_nil _ plain.filled] at last

theorem PlainValue.ne_of_ends {value : String} (plain : PlainValue value) (front : List Char) :
    (front ++ value.toList).getLast? ≠ some '\\' := by
  rw [List.getLast?_append_of_ne_nil _ plain.filled]
  intro last
  have open_ := (plain.visible '\\' (List.mem_of_getLast? last)).2
  simp [specials] at open_

theorem variableOf_plain {key value : String} (name : PlainName key) (plain : PlainValue value) :
    variableOf (key.toList ++ ' ' :: '=' :: ' ' :: value.toList) = .ok (key.toList, some value.toList) := by
  have taken := takeWhile_key name (show isKeyChar ' ' = false by decide) ('=' :: ' ' :: value.toList)
  have blank : isBlank ' ' = true := by decide
  have equals : isBlank '=' = false := by decide
  obtain ⟨c, cs, spelled⟩ := List.exists_cons_of_ne_nil plain.filled
  have begins : isBlank c = false := plain.begins c (by rw [spelled]; rfl)
  have whole := plain.trimEnd []
  rw [variableOf, taken, if_neg name.filled, List.drop_left, List.dropWhile_cons_of_pos blank,
    List.dropWhile_cons_of_neg (by simp [equals])]
  change Except.ok (lower key.toList, some (ConfigFile.trimEnd ((' ' :: value.toList).dropWhile isBlank))) = _
  rw [List.dropWhile_cons_of_pos blank, spelled, List.dropWhile_cons_of_neg (by simp [begins]), name.lower, ← spelled]
  rw [List.nil_append] at whole
  rw [whole]

/-- What an assignment line is without the blank in front of it. -/
def assigned (key value : String) : List Char := key.toList ++ ' ' :: '=' :: ' ' :: value.toList

theorem assigned_eq (key value : String) : assigned key value = (key.toList ++ [' ', '=', ' ']) ++ value.toList := by
  simp [assigned]

theorem exists_assigned {key : String} (name : PlainName key) (value : String) :
    ∃ c cs, assigned key value = c :: cs ∧ isKeyChar c = true := by
  obtain ⟨c, cs, spelled⟩ := List.exists_cons_of_ne_nil name.filled
  exact ⟨c, cs ++ ' ' :: '=' :: ' ' :: value.toList, by simp [assigned, spelled], name.key c (by simp [spelled])⟩

theorem dropWhile_assigned {key : String} (name : PlainName key) (value : String) :
    (assigned key value).dropWhile isBlank = assigned key value := by
  obtain ⟨c, cs, spelled, begins⟩ := exists_assigned name value
  rw [spelled, List.dropWhile_cons_of_neg (by simp [isBlank_eq_false_of_isKeyChar begins])]

theorem dropWhile_line {key : String} (name : PlainName key) (value : String) :
    (Section.line (key, value)).dropWhile isBlank = assigned key value := by
  have tab : isBlank '\t' = true := by decide
  have indented : Section.line (key, value) = '\t' :: assigned key value := by simp [Section.line, assigned]
  rw [indented, List.dropWhile_cons_of_pos tab, dropWhile_assigned name value]

theorem notMem_specials_of_assigned {key value : String} (name : PlainName key) (plain : PlainValue value) :
    ∀ d ∈ assigned key value, d ∉ specials := by
  intro d member
  simp only [assigned, List.mem_append, List.mem_cons] at member
  rcases member with member | rfl | rfl | rfl | member
  · exact notMem_specials_of_isKeyChar (name.key d member)
  · decide
  · decide
  · decide
  · exact (plain.visible d member).2

theorem settingsOf_assignment {key value : String} (name : PlainName key) (plain : PlainValue value) :
    settingsOf file heading number 0 (Section.line (key, value) :: rest) =
      (settingsOf file heading (number + 1) 0 rest).map (⟨heading ++ '.' :: key.toList, some value.toList⟩ :: ·) := by
  obtain ⟨c, cs, spelled, begins⟩ := exists_assigned name value
  have unspecial := notMem_specials_of_isKeyChar begins
  simp only [specials, List.mem_cons, List.not_mem_nil, or_false, not_or] at unspecial
  have unopened : (assigned key value).head? ≠ some '[' := by
    simp [spelled, ne_of_isKeyChar begins (show isKeyChar '[' = false by decide)]
  have whole : continued (assigned key value) rest = (assigned key value, 0) :=
    continued_plain (assigned_eq key value ▸ plain.ne_of_ends _)
  have trimmed : trimEnd (assigned key value) = assigned key value := assigned_eq key value ▸ plain.trimEnd _
  have read := variableOf_plain name plain
  rw [← assigned] at read
  have value_ := unescape_plain fun d member => (plain.visible d member).2
  rw [settingsOf, if_neg (Nat.lt_irrefl 0)]
  simp only [dropWhile_line name value, unopened, if_false, Option.map_none, Option.getD_none, dropWhile_assigned name value]
  -- A line that is no comment and no header is an assignment.
  split
  next none_ => simp [spelled] at none_
  next hash => simp [spelled, unspecial] at hash
  next semicolon => simp [spelled, unspecial] at semicolon
  · rw [whole, uncomment_plain (notMem_specials_of_assigned name plain), trimmed, read]
    simp only [value_]
    rfl

/-! ## Whole files -/

theorem settingsOf_header {s : Section} (plain : s.Plain) :
    settingsOf file heading number 0 (('[' :: s.name.toList ++ [']']) :: rest) =
      settingsOf file s.name.toList (number + 1) 0 rest := by
  have open_ : isBlank '[' = false := by decide
  have read := header_plain plain.name
  have still : ('[' :: s.name.toList ++ [']']).dropWhile isBlank = '[' :: s.name.toList ++ [']'] := by
    rw [List.cons_append, List.dropWhile_cons_of_neg (by simp [open_])]
  have opened : ('[' :: s.name.toList ++ [']']).head? = some '[' := rfl
  rw [settingsOf, if_neg (Nat.lt_irrefl 0), still]
  simp only [opened, if_true, read]
  rfl

theorem settingsOf_assignments {assignments : List (String × String)}
    (plain : ∀ assignment ∈ assignments, PlainName assignment.1 ∧ PlainValue assignment.2) :
    settingsOf file heading number 0 (assignments.map Section.line ++ rest) =
      (settingsOf file heading (number + assignments.length) 0 rest).map
        ((assignments.map fun (key, value) => ⟨heading ++ '.' :: key.toList, some value.toList⟩) ++ ·) := by
  induction assignments generalizing number with
  | nil =>
    simp only [List.map_nil, List.nil_append, List.length_nil, Nat.add_zero]
    cases settingsOf file heading number 0 rest <;> rfl
  | cons assignment later ih =>
    obtain ⟨key, value⟩ := assignment
    obtain ⟨name, here⟩ := plain _ List.mem_cons_self
    rw [List.map_cons, List.cons_append, settingsOf_assignment name here,
      ih fun other member => plain other (List.mem_cons_of_mem _ member), List.length_cons, Nat.add_assoc, Nat.add_comm 1]
    cases settingsOf file heading (number + (later.length + 1)) 0 rest <;> rfl

theorem settingsOf_section {s : Section} (plain : s.Plain) :
    settingsOf file heading number 0 (s.lines ++ rest) =
      (settingsOf file s.name.toList (number + 1 + s.assignments.length) 0 rest).map (s.settings ++ ·) := by
  rw [Section.lines, List.cons_append, settingsOf_header plain, settingsOf_assignments plain.assignments]
  rfl

theorem settingsOf_sections {sections : List Section} (plain : ∀ s ∈ sections, s.Plain) :
    settingsOf file heading number 0 (sections.flatMap Section.lines ++ [[]]) = .ok (sections.flatMap Section.settings) := by
  induction sections generalizing heading number with
  | nil => rfl
  | cons s later ih =>
    rw [List.flatMap_cons, List.append_assoc, settingsOf_section (plain s List.mem_cons_self),
      ih fun other member => plain other (List.mem_cons_of_mem _ member)]
    rfl

theorem newline_notMem_lines {s : Section} (plain : s.Plain) : ∀ line ∈ s.lines, '\n' ∉ line := by
  have unnamed {name : String} (named : PlainName name) : '\n' ∉ name.toList := by
    intro member
    exact absurd (named.key _ member) (by decide)
  intro line member
  rcases List.mem_cons.mp member with rfl | listed
  · simp [unnamed plain.name]
  · obtain ⟨⟨key, value⟩, assigned_, rfl⟩ := List.mem_map.mp listed
    obtain ⟨name, visible⟩ := plain.assignments _ assigned_
    have shown : '\n' ∉ value.toList := fun inside => absurd (visible.visible _ inside).1 (by decide)
    simp [Section.line, unnamed name, shown]

theorem split_terminated {lines : List (List Char)} (whole : ∀ line ∈ lines, '\n' ∉ line) :
    Text.split '\n' (lines.flatMap (· ++ ['\n'])) = lines ++ [[]] := by
  induction lines with
  | nil => rfl
  | cons line later ih =>
    rw [List.flatMap_cons, List.append_assoc, List.singleton_append, Text.split_append,
      Text.split_of_notMem (whole line List.mem_cons_self),
      ih fun other member => whole other (List.mem_cons_of_mem _ member)]
    rfl

theorem head?_render (sections : List Section) : (render sections).toList.head? ≠ some '\uFEFF' := by
  cases sections with
  | nil => simp [render]
  | cons s later => simp [render, Section.lines]

/-- A config file that was written reads as what was written. -/
theorem parse_render {sections : List Section} (file : Path) (plain : ∀ s ∈ sections, s.Plain) :
    parse file (render sections).toList = .ok (sections.flatMap Section.settings) := by
  have whole : ∀ line ∈ sections.flatMap Section.lines, '\n' ∉ line := by
    intro line member
    obtain ⟨s, listed, inside⟩ := List.mem_flatMap.mp member
    exact newline_notMem_lines (plain s listed) line inside
  rw [parse, if_neg (head?_render sections), render, String.toList_ofList, split_terminated whole,
    settingsOf_sections plain]

/-- What a variable is set to last in the sections. -/
def Sets (sections : List Section) (name value : String) : Prop :=
  ∃ before after, sections.flatMap Section.settings = before ++ ⟨name.toList, some value.toList⟩ :: after ∧
    ∀ later ∈ after, later.name ≠ name.toList

theorem last?_of_sets {sections : List Section} {name value : String} (sets : Sets sections name value) :
    last? (sections.flatMap Section.settings) name = some ⟨name.toList, some value.toList⟩ := by
  obtain ⟨before, after, listed, others⟩ := sets
  have none_ : after.reverse.find? (·.name = name.toList) = none := by
    simpa [List.find?_eq_none] using others
  rw [last?, listed, List.reverse_append, List.reverse_cons, List.append_assoc, List.find?_append, none_]
  simp

end ReleaseStamp.Git.ConfigFile
