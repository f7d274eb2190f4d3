import Mathlib.Data.List.Infix
import ReleaseStamp.Proofs.Lockfile.Fields

/-!
Lockfiles made of package records, one line for each name and version and any
further lines. On the text of such a lockfile, stamping is the update of the
first record with the name, and nothing else (`stamp_listing`): no field of the
package starts in the preamble, in a further line, in a version or in another
name (`Clear`), nor across a line end.
-/
namespace ReleaseStamp.Lockfile

/-! ## Lockfiles of records -/

/-- How the lines of a lockfile end. -/
inductive LineEnd where
  | lf
  | crlf
deriving DecidableEq, Repr

def LineEnd.chars : LineEnd → List Char
  | .lf => ['\n']
  | .crlf => ['\r', '\n']

/-- What opens the name of a package. -/
def nameKey : List Char := "name = \"".toList

/-- The line that opens a record. -/
def recordLine : List Char := "[[package]]".toList

/-- The record of one package. -/
structure Record where
  name : List Char
  version : List Char
  /-- The lines after the version. -/
  extra : List (List Char)
deriving DecidableEq, Repr

def Record.lines (record : Record) : List (List Char) :=
  recordLine :: (nameKey ++ record.name ++ ['"']) :: (versionKey ++ record.version ++ ['"']) :: record.extra

/-- A lockfile of package records. -/
structure Listing where
  lineEnd : LineEnd
  /-- What stands before the first record. -/
  preamble : List Char
  records : List Record
  /-- The last line has its line end too. -/
  ended : Bool
deriving DecidableEq, Repr

def Listing.text (listing : Listing) : List Char :=
  listing.preamble ++ listing.lineEnd.chars.intercalate (listing.records.flatMap Record.lines) ++
    if listing.ended then listing.lineEnd.chars else []

structure Record.WellFormed (record : Record) : Prop where
  name : Plain record.name
  version : Plain record.version
  extra : ∀ line ∈ record.extra, ¬ nameKey <:+: line

instance (record : Record) : Decidable record.WellFormed :=
  decidable_of_iff (Plain record.name ∧ Plain record.version ∧ ∀ line ∈ record.extra, ¬ nameKey <:+: line)
    ⟨fun ⟨name, version, extra⟩ => ⟨name, version, extra⟩, fun h => ⟨h.name, h.version, h.extra⟩⟩

/-- A lockfile with names only where its records have them. -/
structure Listing.WellFormed (listing : Listing) : Prop where
  preamble : ¬ nameKey <:+: listing.preamble
  records : ∀ record ∈ listing.records, record.WellFormed

instance (listing : Listing) : Decidable listing.WellFormed :=
  decidable_of_iff (¬ nameKey <:+: listing.preamble ∧ ∀ record ∈ listing.records, record.WellFormed)
    ⟨fun ⟨preamble, records⟩ => ⟨preamble, records⟩, fun h => ⟨h.preamble, h.records⟩⟩

/-- The records with the tag as the version of the first one of the package. -/
def setVersion (package tag : List Char) : List Record → List Record
  | [] => []
  | record :: records =>
    if record.name = package then { record with version := tag } :: records
    else record :: setVersion package tag records

/-- The version of the first record of the package. -/
def versionOf (package : List Char) (records : List Record) : Option (List Char) :=
  (records.find? (·.name = package)).map (·.version)

theorem setVersion_of_absent {package : List Char} (tag : List Char) {records : List Record}
    (absent : ∀ record ∈ records, record.name ≠ package) : setVersion package tag records = records := by
  induction records with
  | nil => rfl
  | cons record records ih =>
    rw [setVersion, if_neg (absent record (by simp)), ih (fun other member => absent other (by simp [member]))]

/-! ## Texts in which no name field starts -/

/-- No occurrence of the name field starts in `cs`, if `rest` follows. -/
def Clear (name cs rest : List Char) : Prop := ∀ before after, cs = before ++ after → after ≠ [] → ¬ name <+: after ++ rest

theorem clear_cons_iff {name cs rest : List Char} {c : Char} :
    Clear name (c :: cs) rest ↔ ¬ name <+: c :: cs ++ rest ∧ Clear name cs rest := by
  constructor
  · intro clear
    refine ⟨clear [] (c :: cs) rfl (by simp), fun before after split nonempty => ?_⟩
    exact clear (c :: before) after (by simp [split]) nonempty
  · rintro ⟨here, later⟩ before after split nonempty
    cases before with
    | nil =>
      rw [List.nil_append] at split
      exact split ▸ here
    | cons d before => exact later before after (List.cons.inj split).2 nonempty

theorem Clear.append {name cs more rest : List Char} (first : Clear name cs (more ++ rest))
    (second : Clear name more rest) : Clear name (cs ++ more) rest := by
  induction cs with
  | nil => exact second
  | cons c cs ih =>
    obtain ⟨here, later⟩ := clear_cons_iff.mp first
    exact clear_cons_iff.mpr ⟨by simpa using here, ih later⟩

theorem fieldHere_eq_none {name cs : List Char} (absent : ¬ name <+: cs) : fieldHere name cs = none := by
  rw [Option.eq_none_iff_forall_ne_some]
  intro field found
  obtain ⟨start, fieldOf⟩ := fieldHere_eq_some_iff.mp found
  apply absent
  rw [fieldOf.cut, start]
  simp

theorem search_append {name cs rest : List Char} (clear : Clear name cs rest) :
    search name (cs ++ rest) = (search name rest).map fun field => { field with before := cs ++ field.before } := by
  induction cs with
  | nil => simp
  | cons c cs ih =>
    obtain ⟨here, later⟩ := clear_cons_iff.mp clear
    simp only [List.cons_append] at here
    simp only [List.cons_append, search, fieldHere_eq_none here, ih later, Option.map_map]
    rfl

theorem restamp_append {package cs rest : List Char} (clear : Clear (nameField package) cs rest) (tag : List Char) :
    restamp package tag (cs ++ rest) = cs ++ restamp package tag rest := by
  rw [restamp, restamp, locate, locate, search_append clear]
  cases search (nameField package) rest with
  | none => rfl
  | some field => simp [VersionField.render]

theorem held_append {package cs rest : List Char} (clear : Clear (nameField package) cs rest) :
    held package (cs ++ rest) = held package rest := by
  rw [held, held, locate, locate, search_append clear, Option.map_map]
  rfl

/-! ## The parts of a record -/

theorem nameField_head (package : List Char) : ∃ rest, nameField package = 'n' :: rest := ⟨_, rfl⟩

theorem clear_of_notMem {package cs : List Char} (absent : 'n' ∉ cs) (rest : List Char) :
    Clear (nameField package) cs rest := by
  rintro before after rfl nonempty occurs
  obtain ⟨c, after, rfl⟩ := List.exists_cons_of_ne_nil nonempty
  obtain ⟨tail, head⟩ := nameField_head package
  rw [head, List.cons_append, List.cons_prefix_cons] at occurs
  exact absent (by simp [← occurs.1])

/-- No name field starts in a text without a name key, if what follows does not
    go on with a key that the text began. -/
theorem clear_of_not_infix {package cs rest : List Char} (absent : ¬ nameKey <:+: cs)
    (stop : ∀ c, rest.head? = some c → c ∉ nameKey.tail) : Clear (nameField package) cs rest := by
  rintro before after rfl nonempty occurs
  have key : nameKey <+: after ++ rest := (List.prefix_append nameKey (package ++ ['"'])).trans occurs
  rcases List.prefix_or_prefix_of_prefix key (List.prefix_append after rest) with inside | across
  · exact absent (inside.isInfix.trans (List.suffix_append before after).isInfix)
  · obtain ⟨more, split⟩ := across
    rw [← split, List.prefix_append_right_inj] at key
    cases more with
    | nil =>
      rw [List.append_nil] at split
      exact absent (split ▸ (List.suffix_append before after).isInfix)
    | cons c more =>
      -- The key began in the text, so its first character is not the one that follows.
      obtain ⟨tail, follows⟩ := key
      apply stop c (by simp [← follows])
      rw [← split, List.tail_append_of_ne_nil nonempty]
      simp

/-- A text that is closed by a quote holds a name field of the package at most
    across that quote. -/
theorem clear_quoted {package cs rest : List Char} (noQuote : '"' ∉ cs)
    (other : bareKey <:+ cs → ¬ package ++ ['"'] <+: rest) : Clear (nameField package) (cs ++ ['"']) rest := by
  intro before after split nonempty occurs
  obtain ⟨inner, last, rfl⟩ := (List.eq_nil_or_concat after).resolve_left nonempty
  rw [List.concat_eq_append, ← List.append_assoc] at split
  obtain ⟨suffix, same⟩ := List.append_inj' split rfl
  obtain ⟨tail, occurs⟩ := occurs
  obtain rfl : '"' = last := List.head_eq_of_cons_eq same
  have cuts : bareKey ++ '"' :: (package ++ ['"'] ++ tail) = inner ++ '"' :: rest := by
    simpa [nameField_split] using occurs
  have innerQuote : '"' ∉ inner := fun member => noQuote (by simp [suffix, member])
  obtain ⟨same, follows⟩ := eq_of_append_cons (by decide) innerQuote cuts
  exact other ⟨before, by rw [suffix, same]⟩ ⟨tail, follows⟩

/-- What follows a line: nothing, or a line end. -/
def AfterLine (lineEnd : LineEnd) (rest : List Char) : Prop := rest = [] ∨ lineEnd.chars <+: rest

theorem LineEnd.afterLine (lineEnd : LineEnd) (rest : List Char) : AfterLine lineEnd (lineEnd.chars ++ rest) :=
  .inr (List.prefix_append _ _)

/-- What follows a line may start with more lines. -/
theorem AfterLine.lines {lineEnd : LineEnd} {rest : List Char} (after : AfterLine lineEnd rest)
    (more : List (List Char)) : AfterLine lineEnd (more.flatMap (lineEnd.chars ++ ·) ++ rest) := by
  cases more with
  | nil => exact after
  | cons line more =>
    rw [List.flatMap_cons, List.append_assoc, List.append_assoc]
    exact lineEnd.afterLine _

theorem AfterLine.stop {lineEnd : LineEnd} {rest : List Char} (after : AfterLine lineEnd rest) :
    ∀ c, rest.head? = some c → c ∉ nameKey.tail := by
  rcases after with rfl | ⟨more, rfl⟩
  · simp
  · cases lineEnd with
    | lf => rintro c ⟨⟩; decide
    | crlf => rintro c ⟨⟩; decide

theorem AfterLine.firstLine {lineEnd : LineEnd} {rest : List Char} (after : AfterLine lineEnd rest) :
    '"' ∉ firstLine rest := by
  rcases after with rfl | ⟨more, rfl⟩
  · simp [Lockfile.firstLine]
  · cases lineEnd with
    | lf => simp [Lockfile.firstLine, LineEnd.chars]
    | crlf => simp [Lockfile.firstLine, LineEnd.chars]

/-- A line end is neither the end of a package's name nor a part of it. -/
theorem AfterLine.not_starts {lineEnd : LineEnd} {rest package : List Char} (after : AfterLine lineEnd rest)
    (line : '\n' ∉ package) : ¬ package ++ ['"'] <+: rest := by
  rintro ⟨tail, split⟩
  rcases after with rfl | ⟨more, rfl⟩
  · simp at split
  · cases lineEnd with
    | lf =>
      cases package with
      | nil => simp [LineEnd.chars] at split
      | cons c package =>
        have := (List.cons.inj split).1
        simp [this] at line
    | crlf =>
      rcases package with _ | ⟨c, _ | ⟨d, package⟩⟩
      · simp [LineEnd.chars] at split
      · simp [LineEnd.chars] at split
      · have := (List.cons.inj (List.cons.inj split).2).1
        simp [this] at line

theorem LineEnd.clear (lineEnd : LineEnd) (package rest : List Char) :
    Clear (nameField package) lineEnd.chars rest := by
  apply clear_of_notMem
  cases lineEnd <;> decide

theorem clear_extra {package rest : List Char} {lineEnd : LineEnd} (after : AfterLine lineEnd rest)
    {extra : List (List Char)} (absent : ∀ line ∈ extra, ¬ nameKey <:+: line) :
    Clear (nameField package) (extra.flatMap (lineEnd.chars ++ ·)) rest := by
  induction extra with
  | nil =>
    rintro before after split nonempty
    exact absurd (List.append_eq_nil_iff.mp split.symm).2 nonempty
  | cons line extra ih =>
    rw [List.flatMap_cons]
    refine Clear.append (Clear.append (lineEnd.clear package _) ?_) (ih fun other member => absent other (by simp [member]))
    apply clear_of_not_infix (absent line (by simp))
    exact (after.lines extra).stop

/-! ## Records in a text -/

/-- The lines of a record without the last line end. -/
def Record.body (lineEnd : LineEnd) (record : Record) : List Char :=
  recordLine ++ (lineEnd.chars ++ (nameField record.name ++ (lineEnd.chars ++ (versionKey ++ (record.version ++
    '"' :: record.extra.flatMap (lineEnd.chars ++ ·))))))

theorem clear_recordLine (lineEnd : LineEnd) (package rest : List Char) :
    Clear (nameField package) (recordLine ++ lineEnd.chars) rest := by
  apply clear_of_notMem
  cases lineEnd <;> decide

theorem Record.body_append (lineEnd : LineEnd) (record : Record) (rest : List Char) :
    record.body lineEnd ++ rest = (recordLine ++ lineEnd.chars) ++ (nameField record.name ++ lineEnd.chars ++
      versionKey ++ record.version ++ '"' :: (record.extra.flatMap (lineEnd.chars ++ ·) ++ rest)) := by
  simp only [Record.body, List.append_assoc, List.cons_append]

/-- A record of the package starts with the field that is stamped and read. -/
theorem Record.leftmost {lineEnd : LineEnd} {record : Record} (wellFormed : record.WellFormed) {rest : List Char}
    (after : AfterLine lineEnd rest) :
    Leftmost (nameField record.name) (nameField record.name ++ lineEnd.chars ++ versionKey ++ record.version ++
        '"' :: (record.extra.flatMap (lineEnd.chars ++ ·) ++ rest))
      ⟨[], lineEnd.chars, record.version, record.extra.flatMap (lineEnd.chars ++ ·) ++ rest⟩ := by
  refine ⟨⟨by simp, ?_, wellFormed.version.2, (after.lines record.extra).firstLine⟩, fun _ _ => Nat.zero_le _⟩
  cases lineEnd with
  | lf => exact .inr rfl
  | crlf => exact .inl rfl

/-- No field of the package starts in a record of another name. -/
theorem Record.clear {lineEnd : LineEnd} {record : Record} (wellFormed : record.WellFormed) {package rest : List Char}
    (plain : Plain package) (other : record.name ≠ package) (after : AfterLine lineEnd rest) :
    Clear (nameField package) (record.body lineEnd) rest := by
  have split : record.body lineEnd = (recordLine ++ lineEnd.chars) ++ ((bareKey ++ ['"']) ++
      ((record.name ++ ['"']) ++ (lineEnd.chars ++ ((bareVersionKey ++ ['"']) ++
        ((record.version ++ ['"']) ++ record.extra.flatMap (lineEnd.chars ++ ·)))))) := by
    rw [Record.body, versionKey_split, nameField_split]
    simp only [List.append_assoc, List.cons_append, List.nil_append]
  rw [split]
  -- Part by part: no part without its closing quote has a quote, so a name field
  -- that starts in it goes on behind that quote.
  apply Clear.append (clear_recordLine lineEnd package _)
  apply Clear.append
  · -- The name key is followed by another name.
    apply clear_quoted (by decide)
    rintro _ ⟨tail, same⟩
    simp only [List.append_assoc, List.cons_append, List.nil_append] at same
    exact other (eq_of_append_cons plain.1 wellFormed.name.1 same).1.symm
  apply Clear.append
  · rw [List.append_assoc]
    exact clear_quoted wellFormed.name.1 fun _ => (lineEnd.afterLine _).not_starts plain.2
  apply Clear.append (lineEnd.clear package _)
  apply Clear.append
  · exact clear_quoted (by decide) fun suffix => absurd suffix (by decide)
  apply Clear.append
  · exact clear_quoted wellFormed.version.1 fun _ => (after.lines record.extra).not_starts plain.2
  · exact clear_extra after wellFormed.extra

/-- Stamping a text that starts with a record stamps the record, if it has the
    name, and otherwise what follows it. -/
theorem Record.restamp_body {lineEnd : LineEnd} {record : Record} (wellFormed : record.WellFormed)
    {package rest : List Char} (plain : Plain package) (after : AfterLine lineEnd rest) (tag : List Char) :
    restamp package tag (record.body lineEnd ++ rest) =
      if record.name = package then { record with version := tag }.body lineEnd ++ rest
      else record.body lineEnd ++ restamp package tag rest := by
  by_cases same : record.name = package
  · subst same
    rw [if_pos rfl, record.body_append, restamp_append (clear_recordLine lineEnd record.name _),
      restamp_of_leftmost (record.leftmost wellFormed after), Record.body_append]
    simp only [VersionField.opening, List.append_assoc, List.nil_append]
  · rw [if_neg same]
    exact restamp_append (record.clear wellFormed plain same after) tag

theorem Record.held_body {lineEnd : LineEnd} {record : Record} (wellFormed : record.WellFormed)
    {package rest : List Char} (plain : Plain package) (after : AfterLine lineEnd rest) :
    held package (record.body lineEnd ++ rest) =
      if record.name = package then some record.version else held package rest := by
  by_cases same : record.name = package
  · subst same
    rw [if_pos rfl, record.body_append, held_append (clear_recordLine lineEnd record.name _),
      held_of_leftmost (record.leftmost wellFormed after)]
  · rw [if_neg same]
    exact held_append (record.clear wellFormed plain same after)

/-! ## Stamping a lockfile of records -/

theorem append_intercalate {sep : List Char} {lines : List (List Char)} (nonempty : lines ≠ []) :
    sep ++ sep.intercalate lines = lines.flatMap (sep ++ ·) := by
  induction lines with
  | nil => exact absurd rfl nonempty
  | cons line lines ih =>
    cases lines with
    | nil => simp
    | cons next lines =>
      rw [List.intercalate_cons_cons, List.append_assoc, ih (by simp)]
      simp

/-- Records after a line, each behind a line end, and what follows the last one. -/
def following (lineEnd : LineEnd) (last : List Char) (records : List Record) : List Char :=
  records.flatMap (fun record => lineEnd.chars ++ record.body lineEnd) ++ last

/-- What follows the last line of a lockfile. -/
def Listing.last (listing : Listing) : List Char := if listing.ended then listing.lineEnd.chars else []

/-- The text of a lockfile without its preamble. -/
def Listing.content (listing : Listing) : List Char :=
  listing.lineEnd.chars.intercalate (listing.records.flatMap Record.lines) ++ listing.last

theorem Listing.text_eq (listing : Listing) : listing.text = listing.preamble ++ listing.content := by
  rw [Listing.text, Listing.content, List.append_assoc]
  rfl

theorem Listing.content_of_nil {listing : Listing} (empty : listing.records = []) : listing.content = listing.last := by
  rw [Listing.content, empty]
  rfl

theorem Record.flatMap_lines (lineEnd : LineEnd) (record : Record) :
    record.lines.flatMap (lineEnd.chars ++ ·) = lineEnd.chars ++ record.body lineEnd := by
  have name : nameField record.name = nameKey ++ record.name ++ ['"'] := rfl
  simp only [Record.lines, Record.body, name, List.flatMap_cons, List.append_assoc, List.cons_append,
    List.nil_append]

theorem Listing.content_of_cons {listing : Listing} (nonempty : listing.records ≠ []) :
    listing.lineEnd.chars ++ listing.content = following listing.lineEnd listing.last listing.records := by
  have lines : listing.records.flatMap Record.lines ≠ [] := by
    intro empty
    obtain ⟨record, member⟩ := List.exists_mem_of_ne_nil _ nonempty
    have none_ := List.flatMap_eq_nil_iff.mp empty record member
    exact absurd none_ (by simp [Record.lines])
  rw [Listing.content, ← List.append_assoc, append_intercalate lines, List.flatMap_assoc, following]
  simp only [Record.flatMap_lines]

theorem Listing.afterLine_last (listing : Listing) : AfterLine listing.lineEnd listing.last := by
  rw [Listing.last]
  split
  · exact .inr (List.prefix_refl _)
  · exact .inl rfl

theorem Listing.held_last (listing : Listing) (package : List Char) : held package listing.last = none := by
  have empty : held package [] = none := rfl
  rw [Listing.last]
  split
  · have ends := held_append (listing.lineEnd.clear package [])
    rwa [List.append_nil, empty] at ends
  · exact empty

theorem following_cons (lineEnd : LineEnd) (last : List Char) (record : Record) (records : List Record) :
    following lineEnd last (record :: records) =
      lineEnd.chars ++ (record.body lineEnd ++ following lineEnd last records) := by
  simp [following]

theorem afterLine_following {lineEnd : LineEnd} {last : List Char} (after : AfterLine lineEnd last)
    (records : List Record) : AfterLine lineEnd (following lineEnd last records) := by
  cases records with
  | nil => exact after
  | cons record records =>
    rw [following_cons]
    exact lineEnd.afterLine _

theorem restamp_following {lineEnd : LineEnd} {last package : List Char} (after : AfterLine lineEnd last)
    (nothing : held package last = none) (plain : Plain package) (tag : List Char) {records : List Record}
    (wellFormed : ∀ record ∈ records, record.WellFormed) :
    restamp package tag (following lineEnd last records) = following lineEnd last (setVersion package tag records) := by
  induction records with
  | nil => exact restamp_of_held_none nothing tag
  | cons record records ih =>
    have later := ih fun other member => wellFormed other (by simp [member])
    rw [following_cons, restamp_append (lineEnd.clear package _),
      record.restamp_body (wellFormed record (by simp)) plain (afterLine_following after records), setVersion]
    split
    · rw [following_cons]
    · rw [following_cons, later]

theorem held_following {lineEnd : LineEnd} {last package : List Char} (after : AfterLine lineEnd last)
    (nothing : held package last = none) (plain : Plain package) {records : List Record}
    (wellFormed : ∀ record ∈ records, record.WellFormed) :
    held package (following lineEnd last records) = versionOf package records := by
  induction records with
  | nil => exact nothing
  | cons record records ih =>
    have later := ih fun other member => wellFormed other (by simp [member])
    rw [following_cons, held_append (lineEnd.clear package _),
      record.held_body (wellFormed record (by simp)) plain (afterLine_following after records), versionOf,
      List.find?_cons]
    by_cases same : record.name = package
    · simp [same]
    · rw [if_neg same, later]
      simp [same, versionOf]

theorem Listing.clear_preamble {listing : Listing} (wellFormed : listing.WellFormed) (package : List Char) :
    Clear (nameField package) listing.preamble listing.content := by
  apply clear_of_not_infix wellFormed.preamble
  cases all : listing.records with
  | nil =>
    rw [listing.content_of_nil all]
    exact listing.afterLine_last.stop
  | cons record records =>
    have nonempty : listing.records ≠ [] := by simp [all]
    have content := listing.content_of_cons nonempty
    rw [all, following_cons, List.append_cancel_left_eq] at content
    rw [content]
    rintro c ⟨⟩
    decide

theorem setVersion_ne_nil {records : List Record} (nonempty : records ≠ []) (package tag : List Char) :
    setVersion package tag records ≠ [] := by
  obtain ⟨record, records, rfl⟩ := List.exists_cons_of_ne_nil nonempty
  rw [setVersion]
  split
  · simp
  · simp

theorem Listing.restamp_text {listing : Listing} (wellFormed : listing.WellFormed) {package : List Char}
    (plain : Plain package) (tag : List Char) :
    restamp package tag listing.text = { listing with records := setVersion package tag listing.records }.text := by
  rw [Listing.text_eq, Listing.text_eq, restamp_append (listing.clear_preamble wellFormed package),
    List.append_cancel_left_eq]
  have nothing := listing.held_last package
  by_cases empty : listing.records = []
  · have same : { listing with records := setVersion package tag listing.records } = listing := by
      rw [empty]
      exact congrArg (fun records => { listing with records }) empty.symm
    rw [same, listing.content_of_nil empty, restamp_of_held_none nothing]
  · -- A line end in front makes every record start behind one.
    apply List.append_cancel_left
    rw [← restamp_append (listing.lineEnd.clear package _), listing.content_of_cons empty,
      restamp_following listing.afterLine_last nothing plain tag wellFormed.records]
    let stamped : Listing := { listing with records := setVersion package tag listing.records }
    have nonempty : stamped.records ≠ [] := setVersion_ne_nil empty package tag
    exact (stamped.content_of_cons nonempty).symm

theorem Listing.held_text {listing : Listing} (wellFormed : listing.WellFormed) {package : List Char}
    (plain : Plain package) : held package listing.text = versionOf package listing.records := by
  rw [Listing.text_eq, held_append (listing.clear_preamble wellFormed package)]
  have nothing := listing.held_last package
  by_cases empty : listing.records = []
  · rw [listing.content_of_nil empty, nothing, empty]
    rfl
  · rw [← held_append (listing.lineEnd.clear package _), listing.content_of_cons empty,
      held_following listing.afterLine_last nothing plain wellFormed.records]

/-- On a lockfile of records, stamping replaces the version of the first record
    of the package and nothing else, and reports and reads the version that
    stood there; without such a record the text stays as it is. -/
theorem stamp_listing {listing : Listing} (wellFormed : listing.WellFormed) {package : String}
    (compiles : searchable package = true) (plain : Plain package.toList) (tag : String) :
    stamp (String.ofList listing.text) package tag = .ok
      ⟨String.ofList { listing with records := setVersion package.toList tag.toList listing.records }.text,
        (versionOf package.toList listing.records).map String.ofList⟩ ∧
    version? (String.ofList listing.text) package =
      .ok ((versionOf package.toList listing.records).map String.ofList) ∧
    ((∀ record ∈ listing.records, record.name ≠ package.toList) →
      stamp (String.ofList listing.text) package tag = .ok ⟨String.ofList listing.text, none⟩) := by
  have stamped := stamp_eq compiles (String.ofList listing.text) tag
  rw [String.toList_ofList, listing.restamp_text wellFormed plain, listing.held_text wellFormed plain] at stamped
  refine ⟨stamped, ?_, fun absent => ?_⟩
  · rw [version?_eq compiles, String.toList_ofList, listing.held_text wellFormed plain]
  · have none_ : versionOf package.toList listing.records = none := by
      rw [versionOf, Option.map_eq_none_iff, List.find?_eq_none]
      intro record member
      simpa using absent record member
    rw [stamped, setVersion_of_absent tag.toList absent, none_]
    rfl

/-- A name and a version that end like a name key, a repeated name and an open last line. -/
theorem stamp_listing_repeated_name :
    ∃ key : Record, key.WellFormed ∧ key.name = bareKey ∧ key.version = bareKey ∧
      stamp (String.ofList (Listing.text ⟨.crlf, [], [key, ⟨['b'], ['1'], []⟩, ⟨['b'], ['2'], []⟩], false⟩)) "b" "\"3" =
        .ok ⟨String.ofList (Listing.text ⟨.crlf, [], [key, ⟨['b'], ['"', '3'], []⟩, ⟨['b'], ['2'], []⟩], false⟩),
          some "1"⟩ := by
  let key : Record := ⟨bareKey, bareKey, ["\"b\"".toList]⟩
  have wellFormed : Listing.WellFormed ⟨.crlf, [], [key, ⟨['b'], ['1'], []⟩, ⟨['b'], ['2'], []⟩], false⟩ := by decide
  have compiles : searchable "b" = true := by decide
  have stamped := (stamp_listing wellFormed compiles (by decide) "\"3").1
  exact ⟨key, wellFormed.records key (by simp), rfl, rfl, stamped⟩

end ReleaseStamp.Lockfile
