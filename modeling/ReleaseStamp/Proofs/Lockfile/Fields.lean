import Mathlib.Data.List.Basic
import ReleaseStamp.Lockfile.VersionField

/-!
The version fields of a text, said without the search: a field is a cut of the
text into a name field, a separator, a version key and a value that runs to the
last quote of its line (`FieldOf`). The search finds the leftmost of them and
nothing else (`search_eq_some_iff`, `search_eq_none_iff`), so that a text is
stamped and read at one place, or nowhere (`stamp_at_leftmost`).
-/
namespace ReleaseStamp.Lockfile

/-! ## The first line of a text -/

/-- The first line of a text, without its end. -/
def firstLine (cs : List Char) : List Char := cs.takeWhile (· ≠ '\n')

theorem firstLine_append_of_mem {cs : List Char} (broken : '\n' ∈ cs) (rest : List Char) :
    firstLine (cs ++ rest) = firstLine cs := by
  induction cs with
  | nil => simp at broken
  | cons c cs ih =>
    by_cases newline : c = '\n'
    · simp [firstLine, newline]
    · have later : '\n' ∈ cs := (List.mem_cons.mp broken).resolve_left (Ne.symm newline)
      have step : ∀ more, firstLine (c :: more) = c :: firstLine more := by simp [firstLine, newline]
      rw [List.cons_append, step, step, ih later]

theorem firstLine_append_of_notMem {cs : List Char} (unbroken : '\n' ∉ cs) (rest : List Char) :
    firstLine (cs ++ rest) = cs ++ firstLine rest := by
  rw [firstLine, List.takeWhile_append_of_pos]
  · rfl
  · intro c member
    have : c ≠ '\n' := fun newline => unbroken (newline ▸ member)
    simpa using this

/-- A text splits at the first occurrence of a character in one way. -/
theorem eq_of_append_cons {c : Char} {one other rest more : List Char} (first : c ∉ one) (second : c ∉ other)
    (same : one ++ c :: rest = other ++ c :: more) : one = other ∧ rest = more := by
  induction one generalizing other with
  | nil =>
    cases other with
    | nil => exact ⟨rfl, (List.cons.inj same).2⟩
    | cons d other => exact absurd (by simp [(List.cons.inj same).1]) second
  | cons d one ih =>
    cases other with
    | nil => exact absurd (by simp [(List.cons.inj same).1]) first
    | cons e other =>
      obtain ⟨rfl, later⟩ := List.cons.inj same
      obtain ⟨rfl, tails⟩ := ih (fun member => first (by simp [member])) (fun member => second (by simp [member])) later
      exact ⟨rfl, tails⟩

/-- A text splits at the last occurrence of a character in one way. -/
theorem eq_of_append_cons_last {c : Char} {one other rest more : List Char} (first : c ∉ rest) (second : c ∉ more)
    (same : one ++ c :: rest = other ++ c :: more) : one = other ∧ rest = more := by
  have reversed := congrArg List.reverse same
  simp only [List.reverse_append, List.reverse_cons, List.append_assoc, List.singleton_append] at reversed
  obtain ⟨tails, heads⟩ := eq_of_append_cons (by simpa using first) (by simpa using second) reversed
  exact ⟨List.reverse_injective heads, List.reverse_injective tails⟩

/-- A line whose value is closed has a quote behind any text on that line,
    whatever the value and what follows it. -/
theorem quote_mem_firstLine {value : List Char} (line : '\n' ∉ value) (between after : List Char) :
    '"' ∈ firstLine (between ++ value ++ '"' :: after) ↔ ('\n' ∈ between → '"' ∈ firstLine between) := by
  by_cases broken : '\n' ∈ between
  · rw [List.append_assoc, firstLine_append_of_mem broken]
    simp [broken]
  · have unbroken : '\n' ∉ between ++ value ++ ['"'] := by simp [broken, line]
    have split : between ++ value ++ '"' :: after = (between ++ value ++ ['"']) ++ after := by simp
    rw [split, firstLine_append_of_notMem unbroken]
    simp [broken]

/-- A text that can stand between quotes on one line. -/
def Plain (cs : List Char) : Prop := '"' ∉ cs ∧ '\n' ∉ cs

instance (cs : List Char) : Decidable (Plain cs) := inferInstanceAs (Decidable (_ ∧ _))

/-! ## Values -/

/-- A value closes exactly where its line has its last quote. -/
theorem closeQuote_eq_none_iff {cs : List Char} : closeQuote cs = none ↔ '"' ∉ firstLine cs := by
  induction cs with
  | nil => simp [closeQuote, firstLine]
  | cons c cs ih =>
    by_cases newline : c = '\n'
    · simp [closeQuote, firstLine, newline]
    · have step : firstLine (c :: cs) = c :: firstLine cs := by simp [firstLine, newline]
      rw [step]
      simp only [closeQuote, newline, if_false, List.mem_cons, not_or, ← ih]
      cases found : closeQuote cs with
      | none => by_cases quote : c = '"' <;> simp [quote, eq_comm]
      | some closed => simp

theorem closeQuote_eq_some_iff {cs value after : List Char} :
    closeQuote cs = some (value, after) ↔ cs = value ++ '"' :: after ∧ '\n' ∉ value ∧ '"' ∉ firstLine after := by
  induction cs generalizing value with
  | nil => simp [closeQuote]
  | cons c cs ih =>
    constructor
    · intro closed
      by_cases newline : c = '\n'
      · simp [closeQuote, newline] at closed
      · simp only [closeQuote, newline, if_false] at closed
        -- A later closing quote takes the first one into the value.
        cases found : closeQuote cs with
        | some inner =>
          simp only [found, Option.some.injEq, Prod.mk.injEq] at closed
          obtain ⟨rfl, rfl⟩ := closed
          obtain ⟨cut, line, last⟩ := ih.mp found
          exact ⟨by simp [cut], by simp [Ne.symm newline, line], last⟩
        | none =>
          simp only [found, Option.ite_none_right_eq_some, Option.some.injEq, Prod.mk.injEq] at closed
          obtain ⟨rfl, rfl, rfl⟩ := closed
          exact ⟨rfl, by simp, closeQuote_eq_none_iff.mp found⟩
    · rintro ⟨cut, line, last⟩
      cases value with
      | nil =>
        obtain ⟨rfl, rfl⟩ := List.cons.inj cut
        simp [closeQuote, closeQuote_eq_none_iff.mpr last]
      | cons d value =>
        obtain ⟨rfl, rest⟩ := List.cons.inj cut
        simp only [List.mem_cons, not_or] at line
        simp [closeQuote, Ne.symm line.1, ih.mpr ⟨rest, line.2, last⟩]

/-! ## Fields -/

/-- What may stand between a name field and the version key: CRLF or any one
    character. -/
def IsSeparator (cs : List Char) : Prop := cs = ['\r', '\n'] ∨ cs.length = 1

/-- The text of a field up to its value. -/
def VersionField.opening (name : List Char) (field : VersionField) : List Char :=
  field.before ++ name ++ field.separator ++ versionKey

/-- A version field of the text with the given name field. -/
structure FieldOf (name text : List Char) (field : VersionField) : Prop where
  cut : text = field.before ++ name ++ field.separator ++ versionKey ++ field.value ++ '"' :: field.after
  separator : IsSeparator field.separator
  /-- The value stays on its line. -/
  line : '\n' ∉ field.value
  /-- The closing quote is the last one of its line. -/
  last : '"' ∉ firstLine field.after

/-- A version field of the text that no other one starts before. -/
structure Leftmost (name text : List Char) (field : VersionField) : Prop where
  fieldOf : FieldOf name text field
  least : ∀ other, FieldOf name text other → field.before.length ≤ other.before.length

/-- A name key without its quote. -/
def bareKey : List Char := "name = ".toList

/-- A version key without its quote. -/
def bareVersionKey : List Char := "version = ".toList

theorem nameField_split (package : List Char) : nameField package = bareKey ++ '"' :: (package ++ ['"']) := rfl

theorem versionKey_split : versionKey = bareVersionKey ++ ['"'] := by decide

theorem versionKey_eq : versionKey = ['v', 'e', 'r', 's', 'i', 'o', 'n', ' ', '=', ' ', '"'] := by decide

theorem valueAfter_eq_some_iff {separator cs : List Char} {field : VersionField} :
    valueAfter separator cs = some field ↔
      field.before = [] ∧ field.separator = separator ∧
        cs = separator ++ versionKey ++ field.value ++ '"' :: field.after ∧
        '\n' ∉ field.value ∧ '"' ∉ firstLine field.after := by
  simp only [valueAfter, Option.bind_eq_some_iff, Option.map_eq_some_iff, stripPrefix?_eq_some_iff]
  constructor
  · rintro ⟨rest, rfl, ⟨value, after⟩, closed, rfl⟩
    obtain ⟨rfl, line, last⟩ := closeQuote_eq_some_iff.mp closed
    exact ⟨rfl, rfl, by simp, line, last⟩
  · rintro ⟨start, rfl, rfl, line, last⟩
    refine ⟨field.value ++ '"' :: field.after, by simp, ⟨field.value, field.after⟩, ?_, ?_⟩
    · exact closeQuote_eq_some_iff.mpr ⟨rfl, line, last⟩
    · cases field; simp_all

/-- The two separators exclude each other: no version key starts with LF. -/
theorem valueAfter_crlf_eq_none {c : Char} {rest : List Char} :
    valueAfter ['\r', '\n'] ([c] ++ versionKey ++ rest) = none := by
  rw [Option.eq_none_iff_forall_ne_some]
  intro field found
  obtain ⟨_, _, cut, _⟩ := valueAfter_eq_some_iff.mp found
  simp [versionKey_eq] at cut

theorem fieldHere_eq_some_iff {name cs : List Char} {field : VersionField} :
    fieldHere name cs = some field ↔ field.before = [] ∧ FieldOf name cs field := by
  simp only [fieldHere, Option.bind_eq_some_iff, Option.or_eq_some_iff, stripPrefix?_eq_some_iff]
  constructor
  · rintro ⟨rest, rfl, found | ⟨_, found⟩⟩
    · obtain ⟨start, separator, cut, line, last⟩ := valueAfter_eq_some_iff.mp found
      exact ⟨start, by simp [start, separator, cut], .inl separator, line, last⟩
    · obtain ⟨start, separator, cut, line, last⟩ := valueAfter_eq_some_iff.mp found
      have one : (rest.take 1).length = 1 := by
        cases rest with
        | nil => simp [versionKey_eq] at cut
        | cons c rest => simp
      refine ⟨start, ⟨?_, .inr (separator ▸ one), line, last⟩⟩
      rw [start, separator]
      simpa using cut
  · rintro ⟨start, field_⟩
    refine ⟨field.separator ++ versionKey ++ field.value ++ '"' :: field.after, ?_, ?_⟩
    · simpa [start] using field_.cut
    · rcases field_.separator with crlf | one
      · left
        exact valueAfter_eq_some_iff.mpr ⟨start, crlf, by rw [crlf], field_.line, field_.last⟩
      · obtain ⟨c, single⟩ := List.length_eq_one_iff.mp one
        right
        constructor
        · rw [single, List.append_assoc]
          exact valueAfter_crlf_eq_none
        · exact valueAfter_eq_some_iff.mpr ⟨start, by simp [single], by simp [single], field_.line, field_.last⟩

/-- A field of a text starts with its first character, or is a field of the rest. -/
theorem fieldOf_cons_iff {name cs : List Char} {c : Char} {field : VersionField} :
    FieldOf name (c :: cs) field ↔
      fieldHere name (c :: cs) = some field ∨
        ∃ inner, FieldOf name cs inner ∧ { inner with before := c :: inner.before } = field := by
  rw [fieldHere_eq_some_iff]
  constructor
  · intro found
    cases start : field.before with
    | nil => exact .inl ⟨rfl, found⟩
    | cons d before =>
      have cut := found.cut
      rw [start] at cut
      obtain ⟨rfl, rest⟩ := List.cons.inj cut
      refine .inr ⟨{ field with before := before }, ⟨rest, found.separator, found.line, found.last⟩, ?_⟩
      rw [← start]
  · rintro (⟨_, found⟩ | ⟨inner, found, rfl⟩)
    · exact found
    · exact ⟨by simp [found.cut], found.separator, found.line, found.last⟩

theorem FieldOf.found {name text : List Char} {field : VersionField} (found : FieldOf name text field) :
    fieldHere name (name ++ field.separator ++ versionKey ++ field.value ++ '"' :: field.after) =
      some { field with before := [] } :=
  fieldHere_eq_some_iff.mpr ⟨rfl, by simp, found.separator, found.line, found.last⟩

/-- Two fields that start at one place are one field. -/
theorem FieldOf.eq_of_length {name text : List Char} {one other : VersionField} (first : FieldOf name text one)
    (second : FieldOf name text other) (same : one.before.length = other.before.length) : one = other := by
  have cuts := first.cut.symm.trans second.cut
  simp only [List.append_assoc] at cuts
  obtain ⟨before, rest⟩ := List.append_inj cuts same
  have start := first.found
  simp only [List.append_assoc] at start
  rw [rest] at start
  have start' := second.found
  simp only [List.append_assoc] at start'
  rw [start'] at start
  have parts := Option.some.inj start
  cases one; cases other
  simp_all

theorem Leftmost.unique {name text : List Char} {one other : VersionField} (first : Leftmost name text one)
    (second : Leftmost name text other) : one = other :=
  first.fieldOf.eq_of_length second.fieldOf
    (Nat.le_antisymm (first.least _ second.fieldOf) (second.least _ first.fieldOf))

theorem FieldOf.opening_eq {name text : List Char} {field : VersionField} (found : FieldOf name text field) :
    text = field.opening name ++ (field.value ++ '"' :: field.after) := by
  simpa [VersionField.opening] using found.cut

theorem FieldOf.closed {name text : List Char} {field : VersionField} (found : FieldOf name text field) :
    '"' ∈ firstLine (field.value ++ '"' :: field.after) := by
  have quote := (quote_mem_firstLine found.line [] field.after).mpr (by simp)
  rwa [List.nil_append] at quote

/-- A text with the opening of a field and a quote on the line after it has a
    field there. -/
theorem fieldOf_of_quote (name before : List Char) {separator rest : List Char} (sep : IsSeparator separator)
    (quote : '"' ∈ firstLine rest) : ∃ value after, rest = value ++ '"' :: after ∧
      FieldOf name (before ++ name ++ separator ++ versionKey ++ rest) ⟨before, separator, value, after⟩ := by
  cases closed : closeQuote rest with
  | none => exact absurd quote (closeQuote_eq_none_iff.mp closed)
  | some found =>
    obtain ⟨cut, line, last⟩ := closeQuote_eq_some_iff.mp closed
    exact ⟨found.1, found.2, cut, ⟨by simp [cut], sep, line, last⟩⟩

/-! ## The search -/

/-- The search in each of its outcomes. -/
def SearchCorrect (name text : List Char) : Option VersionField → Prop
  | some field => Leftmost name text field
  | none => ∀ field, ¬ FieldOf name text field

theorem search_correct (name text : List Char) : SearchCorrect name text (search name text) := by
  induction text with
  | nil =>
    intro field found
    have cut := found.cut
    simp at cut
  | cons c cs ih =>
    rw [search]
    cases here : fieldHere name (c :: cs) with
    | some field =>
      have start := fieldHere_eq_some_iff.mp here
      exact ⟨start.2, fun other _ => by simp [start.1]⟩
    | none =>
      cases later : search name cs with
      | none =>
        rw [later] at ih
        -- Any field starts here, where none was found, or is one of the rest.
        intro field fieldOf
        rcases fieldOf_cons_iff.mp fieldOf with start | ⟨inner, inside, _⟩
        · simp [here] at start
        · exact ih inner inside
      | some field =>
        rw [later] at ih
        refine ⟨fieldOf_cons_iff.mpr (.inr ⟨field, ih.fieldOf, rfl⟩), ?_⟩
        intro other fieldOf
        rcases fieldOf_cons_iff.mp fieldOf with start | ⟨inner, inside, rfl⟩
        · simp [here] at start
        · have := ih.least inner inside
          simpa using this

theorem search_eq_some_iff {name text : List Char} {field : VersionField} :
    search name text = some field ↔ Leftmost name text field := by
  have correct := search_correct name text
  constructor
  · intro found
    rwa [found] at correct
  · intro left
    cases found : search name text with
    | none =>
      rw [found] at correct
      exact absurd left.fieldOf (correct field)
    | some other =>
      rw [found] at correct
      rw [left.unique correct]

theorem search_eq_none_iff {name text : List Char} :
    search name text = none ↔ ∀ field, ¬ FieldOf name text field := by
  have correct := search_correct name text
  constructor
  · intro found
    rwa [found] at correct
  · intro absent
    rw [Option.eq_none_iff_forall_ne_some]
    intro field found
    exact absent field (search_eq_some_iff.mp found).fieldOf

/-! ## Stamping and reading -/

/-- The text with the tag in the place of the package's version. -/
def restamp (package tag text : List Char) : List Char :=
  match locate package text with
  | some field => { field with value := tag }.render package
  | none => text

/-- The version that the text holds for the package. -/
def held (package text : List Char) : Option (List Char) := (locate package text).map (·.value)

theorem restamp_of_leftmost {package text : List Char} {field : VersionField}
    (left : Leftmost (nameField package) text field) (tag : List Char) :
    restamp package tag text = field.opening (nameField package) ++ (tag ++ '"' :: field.after) := by
  rw [restamp, locate, search_eq_some_iff.mpr left]
  simp [VersionField.render, VersionField.opening]

theorem held_of_leftmost {package text : List Char} {field : VersionField}
    (left : Leftmost (nameField package) text field) : held package text = some field.value := by
  rw [held, locate, search_eq_some_iff.mpr left]
  rfl

theorem held_eq_some_iff {package text value : List Char} :
    held package text = some value ↔ ∃ field, Leftmost (nameField package) text field ∧ field.value = value := by
  simp only [held, locate, Option.map_eq_some_iff, search_eq_some_iff]

theorem held_eq_none_iff {package text : List Char} :
    held package text = none ↔ ∀ field, ¬ FieldOf (nameField package) text field := by
  simp only [held, locate, Option.map_eq_none_iff, search_eq_none_iff]

theorem restamp_of_held_none {package text : List Char} (absent : held package text = none) (tag : List Char) :
    restamp package tag text = text := by
  rw [restamp, locate, search_eq_none_iff.mpr (held_eq_none_iff.mp absent)]

theorem stamp_eq {package : String} (compiles : searchable package = true) (text tag : String) :
    stamp text package tag = .ok ⟨String.ofList (restamp package.toList tag.toList text.toList),
      (held package.toList text.toList).map String.ofList⟩ := by
  rw [stamp, if_pos compiles, restamp, held]
  cases locate package.toList text.toList with
  | none => simp
  | some field => simp

theorem version?_eq {package : String} (compiles : searchable package = true) (text : String) :
    version? text package = .ok ((held package.toList text.toList).map String.ofList) := by
  rw [version?, if_pos compiles, held, Option.map_map]
  rfl

/-- A text without a field of the package stays as it is. Any other text has
    one leftmost field: there the tag takes the place of the value, whatever
    characters it has, and nothing else changes; the value is the version that
    is reported and read. -/
theorem stamp_at_leftmost {package : String} (compiles : searchable package = true) (text tag : String) :
    ((∀ field, ¬ FieldOf (nameField package.toList) text.toList field) →
      stamp text package tag = .ok ⟨text, none⟩ ∧ version? text package = .ok none) ∧
    ((∃ field, FieldOf (nameField package.toList) text.toList field) →
      ∃ field, Leftmost (nameField package.toList) text.toList field ∧
        (∀ other, Leftmost (nameField package.toList) text.toList other → other = field) ∧
        stamp text package tag = .ok ⟨String.ofList (field.before ++ nameField package.toList ++ field.separator ++
          versionKey ++ tag.toList ++ '"' :: field.after), some (String.ofList field.value)⟩ ∧
        version? text package = .ok (some (String.ofList field.value))) := by
  rw [stamp_eq compiles, version?_eq compiles]
  constructor
  · intro absent
    have nothing := held_eq_none_iff.mpr absent
    rw [nothing, restamp_of_held_none nothing]
    simp
  · rintro ⟨some_, found⟩
    cases search_ : held package.toList text.toList with
    | none => exact absurd found (held_eq_none_iff.mp search_ some_)
    | some value =>
      obtain ⟨field, left, rfl⟩ := held_eq_some_iff.mp search_
      refine ⟨field, left, fun other second => second.unique left, ?_, rfl⟩
      rw [restamp_of_leftmost left]
      simp [VersionField.opening]

/-- The first name field opens a value that its line does not close; the value
    of the second one holds quotes. -/
theorem stamp_at_leftmost_past_open_line :
    searchable "p" = true ∧
      ∃ field, Leftmost (nameField "p".toList)
          "name = \"p\" version = \"\nname = \"p\"\"version = \"1\" \"2\"\n".toList field ∧
        stamp "name = \"p\" version = \"\nname = \"p\"\"version = \"1\" \"2\"\n" "p" "$1" =
          .ok ⟨String.ofList (field.before ++ nameField "p".toList ++ field.separator ++ versionKey ++
            "$1".toList ++ '"' :: field.after), some (String.ofList field.value)⟩ := by
  have compiles : searchable "p" = true := by decide
  refine ⟨compiles, ?_⟩
  obtain ⟨field, left, _, stamped, _⟩ := (stamp_at_leftmost compiles
    "name = \"p\" version = \"\nname = \"p\"\"version = \"1\" \"2\"\n" "$1").2
      ⟨⟨"name = \"p\" version = \"\n".toList, ['"'], "1\" \"2".toList, ['\n']⟩,
        ⟨by decide, .inr rfl, by decide, by decide⟩⟩
  exact ⟨field, left, stamped⟩

end ReleaseStamp.Lockfile
