import ReleaseStamp.Proofs.Lockfile.Fields

/-!
Stamping one package again and again. A tag of one line leaves the leftmost
field where it is (`Leftmost.withValue`), since the opening of any earlier field
lies in front of the value and so does not see the tag. Stamping is then an
assignment: the last tag decides the text, and each call reports the tag of the
call before (`stampAll_same_package`).
-/
namespace ReleaseStamp.Lockfile

/-! ## Another value in a field -/

theorem FieldOf.withValue {name text tag : List Char} {field : VersionField} (found : FieldOf name text field)
    (line : '\n' ∉ tag) :
    FieldOf name (field.opening name ++ (tag ++ '"' :: field.after)) { field with value := tag } :=
  ⟨by simp [VersionField.opening], found.separator, line, found.last⟩

/-- A field whose opening lies in front of the value of another field starts at
    the same place whatever that value is. -/
theorem FieldOf.in_front {name sought text between tag : List Char} {field other : VersionField}
    (found : FieldOf name text field) (line : '\n' ∉ tag)
    (second : FieldOf sought (field.opening name ++ (tag ++ '"' :: field.after)) other)
    (opening : field.opening name = other.opening sought ++ between) :
    ∃ moved, FieldOf sought text moved ∧ moved.before = other.before := by
  have rest : other.value ++ '"' :: other.after = between ++ tag ++ '"' :: field.after := by
    have cuts := second.opening_eq
    rw [opening, List.append_assoc, List.append_cancel_left_eq] at cuts
    simpa using cuts.symm
  have closed := second.closed
  rw [rest] at closed
  -- Whether the line of the other field closes is decided in front of the value.
  have decided := (quote_mem_firstLine line between field.after).mp closed
  have quote := (quote_mem_firstLine found.line between field.after).mpr decided
  obtain ⟨value, after, _, moved⟩ := fieldOf_of_quote sought other.before second.separator quote
  have whole : text = other.before ++ sought ++ other.separator ++ versionKey ++
      (between ++ field.value ++ '"' :: field.after) := by
    rw [found.opening_eq, opening]
    simp [VersionField.opening]
  rw [← whole] at moved
  exact ⟨_, moved, rfl⟩

theorem IsSeparator.length_pos {separator : List Char} (sep : IsSeparator separator) : 1 ≤ separator.length := by
  rcases sep with rfl | one
  · decide
  · omega

theorem IsSeparator.length_le {separator : List Char} (sep : IsSeparator separator) : separator.length ≤ 2 := by
  rcases sep with rfl | one
  · decide
  · omega

/-- With a tag of one line the leftmost field stays the leftmost one. -/
theorem Leftmost.withValue {name text tag : List Char} {field : VersionField} (left : Leftmost name text field)
    (line : '\n' ∉ tag) :
    Leftmost name (field.opening name ++ (tag ++ '"' :: field.after)) { field with value := tag } := by
  refine ⟨left.fieldOf.withValue line, fun other second => ?_⟩
  by_contra earlier
  -- An earlier field has a separator longer by one at most, so it opens in front of the value.
  have short : (other.opening name).length ≤ (field.opening name).length := by
    have := second.separator.length_le
    have := left.fieldOf.separator.length_pos
    simp only [VersionField.opening, List.length_append]
    simp only at earlier
    omega
  obtain ⟨between, opening⟩ := List.prefix_of_prefix_length_le ⟨_, second.opening_eq.symm⟩
    (List.prefix_append (field.opening name) _) short
  obtain ⟨moved, found, same⟩ := left.fieldOf.in_front line second opening.symm
  have := left.least moved found
  rw [same] at this
  exact earlier this

/-! ## Reading and stamping after stamping -/

theorem held_restamp {package text value : List Char} (start : held package text = some value) {tag : List Char}
    (line : '\n' ∉ tag) : held package (restamp package tag text) = some tag := by
  obtain ⟨field, left, _⟩ := held_eq_some_iff.mp start
  rw [restamp_of_leftmost left]
  exact held_of_leftmost (left.withValue line)

theorem restamp_restamp (package other text : List Char) {tag : List Char} (line : '\n' ∉ tag) :
    restamp package other (restamp package tag text) = restamp package other text := by
  cases start : held package text with
  | none => rw [restamp_of_held_none start]
  | some value =>
    obtain ⟨field, left, _⟩ := held_eq_some_iff.mp start
    rw [restamp_of_leftmost left, restamp_of_leftmost left, restamp_of_leftmost (left.withValue line)]
    rfl

theorem restamp_held {package text value : List Char} (start : held package text = some value) :
    restamp package value text = text := by
  obtain ⟨field, left, rfl⟩ := held_eq_some_iff.mp start
  rw [restamp_of_leftmost left]
  exact left.fieldOf.opening_eq.symm

/-- Stamping shows in the text exactly where the tag takes the place of another version. -/
theorem restamp_eq_self_iff {package text tag : List Char} :
    restamp package tag text = text ↔ held package text = none ∨ held package text = some tag := by
  constructor
  · intro same
    cases start : held package text with
    | none => exact .inl rfl
    | some value =>
      obtain ⟨field, left, rfl⟩ := held_eq_some_iff.mp start
      have cut := left.fieldOf.opening_eq
      rw [restamp_of_leftmost left] at same
      have values := List.append_cancel_left (same.trans cut)
      rw [List.append_cancel_right values]
      exact .inr rfl
  · rintro (absent | start)
    · exact restamp_of_held_none absent tag
    · exact restamp_held start

/-- A version that is read has no line break. -/
theorem newline_notMem_of_held {package text value : List Char} (start : held package text = some value) :
    '\n' ∉ value := by
  obtain ⟨field, left, rfl⟩ := held_eq_some_iff.mp start
  exact left.fieldOf.line

theorem held_restamp_eq_iff {package text value : List Char} (start : held package text = some value)
    (tag : List Char) : held package (restamp package tag text) = some tag ↔ '\n' ∉ tag :=
  ⟨newline_notMem_of_held, held_restamp start⟩

/-! ## Runs -/

/-- A call that stamps a tag into the version of a package. -/
structure Call where
  package : String
  tag : String
deriving DecidableEq, Repr

/-- The text after calls made one after the other, and what each of them
    reports as the version before it. -/
def stampAll (text : String) : List Call → Except SearchError (String × List (Option String))
  | [] => .ok (text, [])
  | call :: calls => do
    let stamped ← stamp text call.package call.tag
    let (final, reports) ← stampAll stamped.text calls
    .ok (final, stamped.previous :: reports)

theorem stampAll_cons {package tag : String} (compiles : searchable package = true) {text : String}
    {calls : List Call} {final : String} {reports : List (Option String)}
    (later : stampAll (String.ofList (restamp package.toList tag.toList text.toList)) calls = .ok (final, reports)) :
    stampAll text (⟨package, tag⟩ :: calls) =
      .ok (final, (held package.toList text.toList).map String.ofList :: reports) := by
  simp only [stampAll, stamp_eq compiles, bind, Except.bind, later]

theorem searchable_of_version? {text package : String} {answer : Option String}
    (read : version? text package = .ok answer) : searchable package = true := by
  by_contra refused
  simp [version?, refused] at read

theorem held_of_version? {text package old : String} (read : version? text package = .ok (some old)) :
    held package.toList text.toList = some old.toList := by
  rw [version?_eq (searchable_of_version? read)] at read
  simp only [Except.ok.injEq, Option.map_eq_some_iff] at read
  obtain ⟨value, start, rfl⟩ := read
  simpa using start

theorem searchable_of_stamp {text package tag : String} {stamped : Stamped}
    (made : stamp text package tag = .ok stamped) : searchable package = true := by
  by_contra refused
  simp [stamp, refused] at made

theorem version?_restamp {text package version tag : String} (start : version? text package = .ok (some version))
    (line : '\n' ∉ tag.toList) :
    version? (String.ofList (restamp package.toList tag.toList text.toList)) package = .ok (some tag) := by
  rw [version?_eq (searchable_of_version? start), String.toList_ofList, held_restamp (held_of_version? start) line]
  simp

/-- The version after stamping a tag of one line is that tag, if there was one before. -/
theorem version?_of_stamp {text package tag : String} {stamped : Stamped} (made : stamp text package tag = .ok stamped)
    (line : '\n' ∉ tag.toList) : version? stamped.text package = .ok (stamped.previous.map fun _ => tag) := by
  have compiles := searchable_of_stamp made
  rw [stamp_eq compiles] at made
  cases made
  rw [version?_eq compiles]
  cases start : held package.toList text.toList with
  | none => simp [restamp_of_held_none start, start]
  | some value => simp [held_restamp start line]

theorem stamp_again {text package tag : String} {stamped : Stamped} (made : stamp text package tag = .ok stamped)
    (fit : stamped.previous = none ∨ '\n' ∉ tag.toList) :
    stamp stamped.text package tag = .ok ⟨stamped.text, stamped.previous.map fun _ => tag⟩ := by
  have compiles := searchable_of_stamp made
  rw [stamp_eq compiles] at made
  cases made
  rw [stamp_eq compiles]
  cases start : held package.toList text.toList with
  | none => simp [restamp_of_held_none start, start]
  | some value =>
    have line := fit.resolve_left (by simp [start])
    simp [held_restamp start line, restamp_restamp _ _ _ line]

theorem newline_notMem_of_previous {text package tag version : String} {stamped : Stamped}
    (made : stamp text package tag = .ok stamped) (before : stamped.previous = some version) :
    '\n' ∉ version.toList := by
  rw [stamp_eq (searchable_of_stamp made)] at made
  cases made
  obtain ⟨value, start, rfl⟩ := Option.map_eq_some_iff.mp before
  rw [String.toList_ofList]
  exact newline_notMem_of_held start

/-- What stamping reports as the version before is the version that can be read. -/
theorem version?_eq_previous {text package tag : String} {stamped : Stamped}
    (made : stamp text package tag = .ok stamped) : version? text package = .ok stamped.previous := by
  have compiles := searchable_of_stamp made
  rw [stamp_eq compiles] at made
  cases made
  rw [version?_eq compiles]

theorem text_eq_self_iff {text package tag : String} {stamped : Stamped} (made : stamp text package tag = .ok stamped) :
    stamped.text = text ↔ stamped.previous = none ∨ stamped.previous = some tag := by
  rw [stamp_eq (searchable_of_stamp made)] at made
  cases made
  have reported : (held package.toList text.toList).map String.ofList = some tag ↔
      held package.toList text.toList = some tag.toList := by
    rw [Option.map_eq_some_iff]
    constructor
    · rintro ⟨value, start, rfl⟩
      rw [start, String.toList_ofList]
    · intro start
      exact ⟨_, start, String.ofList_toList⟩
  rw [Option.map_eq_none_iff, reported, ← restamp_eq_self_iff]
  constructor
  · intro same
    have characters := congrArg String.toList same
    rwa [String.toList_ofList] at characters
  · intro same
    rw [same, String.ofList_toList]

theorem text_of_previous_none {text package tag : String} {stamped : Stamped}
    (made : stamp text package tag = .ok stamped) (nothing : stamped.previous = none) : stamped.text = text :=
  (text_eq_self_iff made).mpr (.inl nothing)

theorem stampAll_of_held {package : String} (compiles : searchable package = true) {tags : List String}
    (lines : ∀ tag ∈ tags, '\n' ∉ tag.toList) (nonempty : tags ≠ []) {text old : String}
    (start : held package.toList text.toList = some old.toList) :
    stampAll text (tags.map fun tag => ⟨package, tag⟩) =
      .ok (String.ofList (restamp package.toList (tags.getLast nonempty).toList text.toList),
        (old :: tags.dropLast).map some) := by
  induction tags generalizing text old with
  | nil => exact absurd rfl nonempty
  | cons tag tags ih =>
    have line : '\n' ∉ tag.toList := lines tag (by simp)
    cases tags with
    | nil =>
      rw [List.map_cons, stampAll_cons compiles rfl, start]
      simp
    | cons next rest =>
      -- The next call finds the tag of this one, and overwrites it.
      have later : held package.toList (String.ofList (restamp package.toList tag.toList text.toList)).toList =
          some tag.toList := by
        rw [String.toList_ofList]
        exact held_restamp start line
      have run := ih (fun other member => lines other (by simp [member])) (by simp) later
      rw [String.toList_ofList, restamp_restamp _ _ _ line] at run
      rw [List.map_cons, stampAll_cons compiles run, start]
      simp

/-- Tags of one line stamped one after the other into a package that the text
    lists: the text is the one that the last tag alone makes, each call reports
    the tag before it, and the last tag is read. The held version stamps the
    text onto itself, and a tag reads back exactly if it has no line break. -/
theorem stampAll_same_package {text package old : String} (start : version? text package = .ok (some old))
    {tags : List String} (nonempty : tags ≠ []) (lines : ∀ tag ∈ tags, '\n' ∉ tag.toList) :
    (∃ final, stamp text package (tags.getLast nonempty) = .ok ⟨final, some old⟩ ∧
      stampAll text (tags.map fun tag => ⟨package, tag⟩) = .ok (final, (old :: tags.dropLast).map some) ∧
      version? final package = .ok (some (tags.getLast nonempty))) ∧
    stamp text package old = .ok ⟨text, some old⟩ ∧
    ∀ tag, ∃ final, stamp text package tag = .ok ⟨final, some old⟩ ∧
      (version? final package = .ok (some tag) ↔ '\n' ∉ tag.toList) := by
  have compiles := searchable_of_version? start
  have value := held_of_version? start
  have stamps : ∀ tag, stamp text package tag =
      .ok ⟨String.ofList (restamp package.toList tag.toList text.toList), some old⟩ := by
    intro tag
    rw [stamp_eq compiles, value]
    simp
  have reads : ∀ tag : String,
      version? (String.ofList (restamp package.toList tag.toList text.toList)) package = .ok (some tag) ↔
        '\n' ∉ tag.toList := by
    intro tag
    rw [← held_restamp_eq_iff value]
    constructor
    · intro read
      simpa using held_of_version? read
    · intro read
      rw [version?_eq compiles, String.toList_ofList, read]
      simp
  refine ⟨⟨_, stamps _, stampAll_of_held compiles lines nonempty value, ?_⟩, ?_, fun tag => ⟨_, stamps tag, reads tag⟩⟩
  · exact (reads _).mpr (lines _ (List.getLast_mem nonempty))
  · rw [stamps, restamp_held value]
    simp

/-- The first tag holds a whole field of the package, the second one ends in a quote. -/
theorem stampAll_same_package_with_quotes :
    version? "name = \"p\"\nversion = \"0\"\n" "p" = .ok (some "0") ∧
      ∃ final, stamp "name = \"p\"\nversion = \"0\"\n" "p" "2\"" = .ok ⟨final, some "0"⟩ ∧
        stampAll "name = \"p\"\nversion = \"0\"\n" [⟨"p", "1\" name = \"p\" version = \"1"⟩, ⟨"p", "2\""⟩] =
          .ok (final, [some "0", some "1\" name = \"p\" version = \"1"]) ∧
        version? final "p" = .ok (some "2\"") := by
  have start : version? "name = \"p\"\nversion = \"0\"\n" "p" = .ok (some "0") := by decide
  have nonempty : ["1\" name = \"p\" version = \"1", "2\""] ≠ [] := by decide
  exact ⟨start, (stampAll_same_package start nonempty (by decide)).1⟩

end ReleaseStamp.Lockfile
