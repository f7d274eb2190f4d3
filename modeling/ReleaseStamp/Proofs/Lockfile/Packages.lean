import ReleaseStamp.Proofs.Lockfile.Runs

/-!
Stamping different packages. On any text the leftmost fields of two packages lie
one in front of the other, if neither the names nor the values have quotes
(`FieldOf.apart`): the opening of a field cannot lie across the value of the
other, since the closing quote of a value is the last one of its line. So stamps
of different packages commute, and the text after a run depends on the last tag
of each package only (`stampAll_order`).
-/
namespace ReleaseStamp.Lockfile

/-! ## Openings and values -/

theorem IsSeparator.not_both {separator : List Char} (sep : IsSeparator separator) (quote : '"' ∈ separator) :
    '\n' ∉ separator := by
  rcases sep with rfl | one
  · exact absurd quote (by decide)
  · obtain ⟨c, rfl⟩ := List.length_eq_one_iff.mp one
    rw [List.mem_singleton] at quote ⊢
    rw [← quote]
    decide

/-- If the line after a quote of an opening breaks inside the opening and has no
    other quote before, that quote closes the name. -/
theorem name_of_broken_line {package separator front rest : List Char} (plain : Plain package)
    (sep : IsSeparator separator)
    (split : nameField package ++ separator ++ bareVersionKey = front ++ '"' :: rest) (broken : '\n' ∈ rest)
    (last : '"' ∉ firstLine rest) : front = bareKey ++ '"' :: package := by
  have whole : (bareKey ++ '"' :: package) ++ '"' :: (separator ++ bareVersionKey) = front ++ '"' :: rest := by
    rw [← split, nameField_split]
    simp
  rcases List.append_eq_append_iff.mp whole with ⟨more, longer, tail⟩ | ⟨more, shorter, tail⟩
  · cases more with
    | nil => simpa using longer
    | cons c more =>
      -- A quote and a line break after the name would both be in the separator.
      obtain ⟨rfl, later⟩ := List.cons.inj tail
      have quote : '"' ∈ separator ++ bareVersionKey := by simp [later]
      have newline : '\n' ∈ separator ++ bareVersionKey := by simp [later, broken]
      have quoteless : '"' ∉ bareVersionKey := by decide
      have unbroken : '\n' ∉ bareVersionKey := by decide
      rw [List.mem_append] at quote newline
      exact absurd (newline.resolve_right unbroken) (sep.not_both (quote.resolve_right quoteless))
  · cases more with
    | nil => simpa using shorter.symm
    | cons c more =>
      -- The line goes on to the quote that closes the name.
      rw [List.cons_append] at tail
      obtain ⟨rfl, later⟩ := List.cons.inj tail
      have unbroken : '\n' ∉ more := by
        intro member
        have inName : '\n' ∈ bareKey ++ '"' :: package := by simp [shorter, member]
        have key : '\n' ∉ bareKey := by decide
        simp [key, plain.2] at inName
      rw [later, firstLine_append_of_notMem unbroken] at last
      exact absurd (by simp [firstLine]) last

theorem VersionField.opening_split (name : List Char) (field : VersionField) :
    field.opening name = (field.before ++ (name ++ field.separator ++ bareVersionKey)) ++ ['"'] := by
  simp [VersionField.opening, versionKey_split]

/-- The two keys end differently. -/
theorem keys_differ {front other : List Char} : front ++ bareVersionKey ≠ other ++ bareKey := by
  intro same
  have key : bareKey <:+ front ++ bareVersionKey := ⟨other, same.symm⟩
  rcases List.suffix_or_suffix_of_suffix key (List.suffix_append front bareVersionKey) with suffix | suffix
  · exact absurd suffix (by decide)
  · exact absurd suffix (by decide)

/-- A text that starts in a value and runs up to a quote with another one on the
    line after it goes past the closing quote and the end of its line. -/
theorem FieldOf.past_line {name text inner line : List Char} {field : VersionField} (found : FieldOf name text field)
    (quoteless : '"' ∉ field.value) (cuts : field.value ++ '"' :: field.after = inner ++ '"' :: line)
    (closed : '"' ∈ firstLine line) :
    ∃ rest, inner = field.value ++ '"' :: rest ∧ '\n' ∈ rest ∧ '"' ∉ firstLine rest := by
  -- The closing quote is not the second of the two, since no quote follows it on its line.
  have quote : '"' ∈ inner := by
    by_contra absent
    obtain ⟨_, same⟩ := eq_of_append_cons quoteless absent cuts
    exact found.last (same ▸ closed)
  obtain ⟨value, rest, rfl, first⟩ := List.eq_append_cons_of_mem quote
  rw [List.append_assoc, List.cons_append] at cuts
  obtain ⟨rfl, after⟩ := eq_of_append_cons quoteless first cuts
  have last := found.last
  rw [after] at last
  have broken : '\n' ∈ rest := by
    by_contra unbroken
    rw [firstLine_append_of_notMem unbroken] at last
    exact last (by simp [firstLine])
  rw [firstLine_append_of_mem broken] at last
  exact ⟨rest, rfl, broken, last⟩

/-- No opening ends behind the value of another field and starts in front of its
    closing quote. -/
theorem FieldOf.front_or_behind {name text package : List Char} {field other : VersionField}
    (found : FieldOf name text field) (quoteless : '"' ∉ field.value) (plain : Plain package)
    (second : FieldOf (nameField package) text other) :
    other.opening (nameField package) <+: field.opening name ∨
      field.opening name ++ field.value ++ ['"'] <+: other.before := by
  have cuts : field.opening name ++ (field.value ++ '"' :: field.after) =
      other.opening (nameField package) ++ (other.value ++ '"' :: other.after) :=
    found.opening_eq.symm.trans second.opening_eq
  by_cases short : (other.opening (nameField package)).length ≤ (field.opening name).length
  · exact .inl (List.prefix_of_prefix_length_le ⟨_, cuts.symm⟩ (List.prefix_append _ _) short)
  right
  have closed := second.closed
  generalize other.value ++ '"' :: other.after = line at cuts closed
  rw [other.opening_split, List.append_assoc, List.singleton_append] at cuts
  obtain ⟨inner, opens⟩ : field.opening name <+:
      other.before ++ (nameField package ++ other.separator ++ bareVersionKey) := by
    apply List.prefix_of_prefix_length_le (List.prefix_append _ _) ⟨_, cuts.symm⟩
    rw [other.opening_split, List.length_append, List.length_singleton] at short
    omega
  rw [← opens, List.append_assoc, List.append_cancel_left_eq] at cuts
  obtain ⟨rest, rfl, broken, last⟩ := found.past_line quoteless cuts closed
  rw [← List.append_assoc] at opens
  rcases List.append_eq_append_iff.mp opens with ⟨more, starts, header⟩ | ⟨front, starts, header⟩
  · cases more with
    | nil =>
      rw [List.nil_append, ← List.nil_append ('"' :: rest)] at header
      have name_ := name_of_broken_line plain second.separator header.symm broken last
      simp at name_
    | cons c more =>
      obtain ⟨rfl, _⟩ := List.cons.inj header
      exact ⟨more, by rw [starts]; simp⟩
  · -- Otherwise the closing quote would be the one after the name.
    have name_ := name_of_broken_line plain second.separator header broken last
    have quotes : (field.before ++ (name ++ field.separator) ++ bareVersionKey) ++ '"' :: field.value =
        (other.before ++ bareKey) ++ '"' :: package := by
      simpa [field.opening_split, name_] using starts
    exact absurd (eq_of_append_cons_last quoteless plain.1 quotes).1 keys_differ

/-- What stands in front of a quote and a separator after it. -/
theorem eq_of_quote_separator {front other separator separator' : List Char} (sep : IsSeparator separator)
    (sep' : IsSeparator separator') (same : front ++ '"' :: separator = other ++ '"' :: separator') : front = other := by
  -- A CRLF and a single character would leave the CR for the quote.
  have crlf : ∀ {front other : List Char} {c : Char}, front ++ ['"', '\r', '\n'] ≠ other ++ ['"', c] := by
    intro front other c same
    have split : (front ++ ['"']) ++ ['\r', '\n'] = other ++ ['"', c] := by simpa using same
    have ends := (List.append_inj' split rfl).2
    simp at ends
  rcases sep with rfl | one
  · rcases sep' with rfl | one'
    · exact (List.append_inj' same rfl).1
    · obtain ⟨c, rfl⟩ := List.length_eq_one_iff.mp one'
      exact absurd same crlf
  · obtain ⟨c, rfl⟩ := List.length_eq_one_iff.mp one
    rcases sep' with rfl | one'
    · exact absurd same.symm crlf
    · obtain ⟨d, rfl⟩ := List.length_eq_one_iff.mp one'
      exact (List.append_inj' same rfl).1

theorem opening_ne {package different : List Char} {field other : VersionField} (plain : Plain package)
    (plain' : Plain different) (sep : IsSeparator field.separator) (sep' : IsSeparator other.separator)
    (distinct : package ≠ different) : field.opening (nameField package) ≠ other.opening (nameField different) := by
  intro same
  simp only [VersionField.opening, List.append_cancel_right_eq] at same
  have names : (field.before ++ bareKey ++ '"' :: package) ++ '"' :: field.separator =
      (other.before ++ bareKey ++ '"' :: different) ++ '"' :: other.separator := by
    simpa [nameField_split] using same
  have quotes := eq_of_quote_separator sep sep' names
  exact distinct (eq_of_append_cons_last plain.1 plain'.1 quotes).2

/-- Of two fields of different packages one lies in front of the other. -/
theorem FieldOf.apart {package different text : List Char} {field other : VersionField}
    (found : FieldOf (nameField package) text field) (second : FieldOf (nameField different) text other)
    (plain : Plain package) (plain' : Plain different) (distinct : package ≠ different)
    (quoteless : '"' ∉ field.value) (quoteless' : '"' ∉ other.value) :
    (∃ between, other.before = field.opening (nameField package) ++ (field.value ++ '"' :: between)) ∨
      ∃ between, field.before = other.opening (nameField different) ++ (other.value ++ '"' :: between) := by
  rcases found.front_or_behind quoteless plain' second with front | ⟨between, behind⟩
  · rcases second.front_or_behind quoteless' plain found with front' | ⟨between, behind⟩
    · have same := front.eq_of_length_le front'.length_le
      exact absurd same.symm (opening_ne plain plain' found.separator second.separator distinct)
    · exact .inr ⟨between, by simpa using behind.symm⟩
  · exact .inl ⟨between, by simpa using behind.symm⟩

/-! ## Fields beside a changed value -/

/-- Every field beside a new value was a field beside the old one. -/
theorem FieldOf.beside {name package text tag : List Char} {field other : VersionField}
    (found : FieldOf name text field) (plain : Plain package) (plainTag : Plain tag)
    (second : FieldOf (nameField package) (field.opening name ++ (tag ++ '"' :: field.after)) other) :
    (other.opening (nameField package) <+: field.opening name ∧
      ∃ old, FieldOf (nameField package) text old ∧ old.before = other.before) ∨
    ∃ between, other.before = field.opening name ++ (tag ++ '"' :: between) ∧
      ∃ old, FieldOf (nameField package) text old ∧
        old.before = field.opening name ++ (field.value ++ '"' :: between) := by
  rcases (found.withValue plainTag.2).front_or_behind plainTag.1 plain second with ⟨between, front⟩ | ⟨between, behind⟩
  · exact .inl ⟨⟨between, front⟩, found.in_front plainTag.2 second front.symm⟩
  · right
    have start : other.before = field.opening name ++ (tag ++ '"' :: between) := by
      simpa [VersionField.opening] using behind.symm
    refine ⟨between, start, { other with before := field.opening name ++ (field.value ++ '"' :: between) }, ?_, rfl⟩
    have cut := second.cut
    rw [start] at cut
    have after : field.after = between ++ (nameField package ++ (other.separator ++ (versionKey ++
        (other.value ++ '"' :: other.after)))) := by simpa using cut
    refine ⟨?_, second.separator, second.line, second.last⟩
    rw [found.opening_eq, after]
    simp

/-- A package that the text does not list is not listed beside a new value. -/
theorem absent_beside {name package text tag : List Char} {field : VersionField} (found : FieldOf name text field)
    (plain : Plain package) (plainTag : Plain tag) (absent : ∀ other, ¬ FieldOf (nameField package) text other) :
    ∀ other, ¬ FieldOf (nameField package) (field.opening name ++ (tag ++ '"' :: field.after)) other := by
  intro other second
  rcases found.beside plain plainTag second with ⟨_, old, first, _⟩ | ⟨_, _, old, first, _⟩
  · exact absent old first
  · exact absent old first

/-- The leftmost field of a package behind a changed value moves with the text. -/
theorem Leftmost.behind {name package text tag between : List Char} {front back : VersionField}
    (left : Leftmost (nameField package) text back) (found : FieldOf name text front) (plain : Plain package)
    (plainTag : Plain tag) (split : back.before = front.opening name ++ (front.value ++ '"' :: between)) :
    Leftmost (nameField package) (front.opening name ++ (tag ++ '"' :: front.after))
      { back with before := front.opening name ++ (tag ++ '"' :: between) } := by
  have cuts := found.opening_eq.symm.trans left.fieldOf.cut
  rw [split] at cuts
  have after : front.after = between ++ (nameField package ++ (back.separator ++ (versionKey ++
      (back.value ++ '"' :: back.after)))) := by simpa using cuts
  refine ⟨⟨by simp [after], left.fieldOf.separator, left.fieldOf.line, left.fieldOf.last⟩, fun other second => ?_⟩
  rcases found.beside plain plainTag second with ⟨inFront, old, first, same⟩ | ⟨between', start, old, first, same⟩
  · -- A field in front of the value would have been further left before.
    have least := left.least old first
    have short := inFront.length_le
    rw [same, split] at least
    simp only [VersionField.opening, List.length_append, List.length_cons] at least short
    omega
  · have least := left.least old first
    rw [same, split] at least
    simp only [start, List.length_append, List.length_cons] at least ⊢
    omega

/-- The leftmost field of a package in front of a changed value stays where it is. -/
theorem Leftmost.in_front {name package text tag between : List Char} {front back : VersionField}
    (left : Leftmost (nameField package) text front) (found : FieldOf name text back) (plain : Plain package)
    (plainTag : Plain tag)
    (split : back.before = front.opening (nameField package) ++ (front.value ++ '"' :: between)) :
    Leftmost (nameField package) (back.opening name ++ (tag ++ '"' :: back.after))
      { front with after := between ++ name ++ back.separator ++ versionKey ++ tag ++ '"' :: back.after } := by
  have cuts := left.fieldOf.opening_eq.symm.trans found.opening_eq
  have opening : back.opening name = front.opening (nameField package) ++ (front.value ++ '"' :: (between ++ name ++
      back.separator ++ versionKey)) := by
    rw [VersionField.opening, split]
    simp
  rw [opening] at cuts
  have after : front.after = between ++ name ++ back.separator ++ versionKey ++ back.value ++ '"' :: back.after := by
    simpa using cuts
  have last := left.fieldOf.last
  rw [after, quote_mem_firstLine found.line] at last
  refine ⟨⟨?_, left.fieldOf.separator, left.fieldOf.line, ?_⟩, fun other second => ?_⟩
  · rw [opening]
    simp [VersionField.opening]
  · simp only
    rwa [quote_mem_firstLine plainTag.2]
  · rcases found.beside plain plainTag second with ⟨_, old, first, same⟩ | ⟨between', start, old, first, same⟩
    · exact same ▸ left.least old first
    · have long := congrArg List.length split
      simp only [start, VersionField.opening, List.length_append] at long ⊢
      omega

/-! ## Stamps of two packages -/

/-- A stamp of a package leaves the versions of all others as they are. -/
theorem held_restamp_of_ne {package different text tag : List Char} (plain : Plain package)
    (plain' : Plain different) (distinct : package ≠ different) (plainTag : Plain tag)
    (quoteless : ∀ value, held package text = some value → '"' ∉ value)
    (quoteless' : ∀ value, held different text = some value → '"' ∉ value) :
    held different (restamp package tag text) = held different text := by
  cases start : held package text with
  | none => rw [restamp_of_held_none start]
  | some value =>
    obtain ⟨field, left, rfl⟩ := held_eq_some_iff.mp start
    rw [restamp_of_leftmost left]
    cases start' : held different text with
    | none => exact held_eq_none_iff.mpr (absent_beside left.fieldOf plain' plainTag (held_eq_none_iff.mp start'))
    | some value' =>
      obtain ⟨other, left', rfl⟩ := held_eq_some_iff.mp start'
      rcases left.fieldOf.apart left'.fieldOf plain plain' distinct (quoteless _ start) (quoteless' _ start') with
        ⟨between, split⟩ | ⟨between, split⟩
      · have moved := left'.behind left.fieldOf plain' plainTag split
        rw [held_of_leftmost moved]
      · have kept := left'.in_front left.fieldOf plain' plainTag split
        rw [held_of_leftmost kept]

theorem restamp_comm_of_front {package different text tag tag' between : List Char} {front back : VersionField}
    (left : Leftmost (nameField package) text front) (left' : Leftmost (nameField different) text back)
    (plain : Plain package) (plain' : Plain different) (plainTag : Plain tag) (plainTag' : Plain tag')
    (split : back.before = front.opening (nameField package) ++ (front.value ++ '"' :: between)) :
    restamp different tag' (restamp package tag text) = restamp package tag (restamp different tag' text) := by
  rw [restamp_of_leftmost left, restamp_of_leftmost (left'.behind left.fieldOf plain' plainTag split),
    restamp_of_leftmost left', restamp_of_leftmost (left.in_front left'.fieldOf plain plainTag' split)]
  simp [VersionField.opening]

theorem restamp_comm {package different text tag tag' : List Char} (plain : Plain package)
    (plain' : Plain different) (distinct : package ≠ different) (plainTag : Plain tag) (plainTag' : Plain tag')
    (quoteless : ∀ value, held package text = some value → '"' ∉ value)
    (quoteless' : ∀ value, held different text = some value → '"' ∉ value) :
    restamp different tag' (restamp package tag text) = restamp package tag (restamp different tag' text) := by
  have kept := held_restamp_of_ne plain plain' distinct plainTag quoteless quoteless'
  have kept' := held_restamp_of_ne plain' plain distinct.symm plainTag' quoteless' quoteless
  cases start : held package text with
  | none =>
    rw [start] at kept'
    rw [restamp_of_held_none start, restamp_of_held_none kept']
  | some value =>
    cases start' : held different text with
    | none =>
      rw [start'] at kept
      rw [restamp_of_held_none start', restamp_of_held_none kept]
    | some value' =>
      obtain ⟨field, left, rfl⟩ := held_eq_some_iff.mp start
      obtain ⟨other, left', rfl⟩ := held_eq_some_iff.mp start'
      rcases left.fieldOf.apart left'.fieldOf plain plain' distinct (quoteless _ start) (quoteless' _ start') with
        ⟨between, split⟩ | ⟨between, split⟩
      · exact restamp_comm_of_front left left' plain plain' plainTag plainTag' split
      · exact (restamp_comm_of_front left' left plain' plain plainTag' plainTag split).symm

/-! ## Runs over many packages -/

/-- The text after calls made one after the other. -/
def restampAll (text : List Char) (calls : List Call) : List Char :=
  calls.foldl (fun text call => restamp call.package.toList call.tag.toList text) text

/-- The tag of the last call for the package. -/
def lastTag (package : String) : List Call → Option String
  | [] => none
  | call :: calls => (lastTag package calls).or (if call.package = package then some call.tag else none)

theorem lastTag_eq_none_iff {package : String} {calls : List Call} :
    lastTag package calls = none ↔ ∀ call ∈ calls, call.package ≠ package := by
  induction calls with
  | nil => simp [lastTag]
  | cons call calls ih => simp [lastTag, ih, and_comm]

theorem lastTag_filter (package other : String) (calls : List Call) :
    lastTag other (calls.filter (·.package ≠ package)) = if package = other then none else lastTag other calls := by
  induction calls with
  | nil => simp [lastTag]
  | cons call calls ih =>
    by_cases same : call.package = package
    · rw [List.filter_cons_of_neg (by simpa using same), ih, lastTag, same]
      split <;> simp [*]
    · rw [List.filter_cons_of_pos (by simpa using same), lastTag, ih, lastTag]
      by_cases equal : package = other
      · subst equal
        simp [same]
      · simp [equal]

/-- Versions without quotes, for all the packages that the text lists. -/
def Quoteless (packages : List String) (text : List Char) : Prop :=
  ∀ package ∈ packages, ∀ value, held package.toList text = some value → '"' ∉ value

/-- Calls for some of the packages, with tags of one line without quotes. -/
def CallsOn (packages : List String) (calls : List Call) : Prop :=
  ∀ call ∈ calls, call.package ∈ packages ∧ Plain call.tag.toList

instance (packages : List String) (calls : List Call) : Decidable (CallsOn packages calls) :=
  inferInstanceAs (Decidable (∀ call ∈ calls, call.package ∈ packages ∧ Plain call.tag.toList))

theorem CallsOn.filter {packages : List String} {calls : List Call} (on : CallsOn packages calls) (keep : Call → Bool) :
    CallsOn packages (calls.filter keep) :=
  fun call inside => on call (List.mem_filter.mp inside).1

section
variable {packages : List String} (names : ∀ package ∈ packages, Plain package.toList)
include names

/-- What a call does to the versions that are read. -/
theorem held_call {text : List Char} (quoteless : Quoteless packages text) {call : Call}
    (listed : call.package ∈ packages) (plainTag : Plain call.tag.toList) {package : String}
    (member : package ∈ packages) :
    held package.toList (restamp call.package.toList call.tag.toList text) =
      if call.package = package then (held package.toList text).map fun _ => call.tag.toList
      else held package.toList text := by
  by_cases same : call.package = package
  · subst same
    rw [if_pos rfl]
    cases start : held call.package.toList text with
    | none => rw [restamp_of_held_none start, start]; rfl
    | some value => exact held_restamp start plainTag.2
  · have distinct : call.package.toList ≠ package.toList := fun equal => same (String.toList_inj.mp equal)
    rw [if_neg same]
    exact held_restamp_of_ne (names _ listed) (names _ member) distinct plainTag (quoteless _ listed)
      (quoteless _ member)

theorem Quoteless.call {text : List Char} (quoteless : Quoteless packages text) {call : Call}
    (listed : call.package ∈ packages) (plainTag : Plain call.tag.toList) :
    Quoteless packages (restamp call.package.toList call.tag.toList text) := by
  intro package member value start
  rw [held_call names quoteless listed plainTag member] at start
  split at start
  · simp only [Option.map_eq_some_iff] at start
    obtain ⟨_, _, rfl⟩ := start
    exact plainTag.1
  · exact quoteless package member value start

/-- After a run every listed package has its last tag. -/
theorem held_restampAll {text : List Char} (quoteless : Quoteless packages text) {calls : List Call}
    (on : CallsOn packages calls) {package : String} (member : package ∈ packages) :
    held package.toList (restampAll text calls) =
      (held package.toList text).map fun value => ((lastTag package calls).map String.toList).getD value := by
  induction calls generalizing text with
  | nil => simp [restampAll, lastTag]
  | cons call calls ih =>
    obtain ⟨listed, plainTag⟩ := on call (by simp)
    have later := ih (quoteless.call names listed plainTag) fun other inside => on other (by simp [inside])
    have step : restampAll text (call :: calls) =
        restampAll (restamp call.package.toList call.tag.toList text) calls := rfl
    rw [step, later, held_call names quoteless listed plainTag member, lastTag]
    by_cases same : call.package = package
    · cases held package.toList text <;> cases lastTag package calls <;> simp [same]
    · simp [same]

/-- A stamp can wait until after calls for other packages, and is lost before
    calls for its own. -/
theorem restampAll_restamp {text : List Char} (quoteless : Quoteless packages text) {calls : List Call}
    (on : CallsOn packages calls) {call : Call} (listed : call.package ∈ packages) (plainTag : Plain call.tag.toList) :
    restampAll (restamp call.package.toList call.tag.toList text) calls =
      if lastTag call.package calls = none then restamp call.package.toList call.tag.toList (restampAll text calls)
      else restampAll text calls := by
  induction calls generalizing text with
  | nil => rfl
  | cons next calls ih =>
    obtain ⟨listed', plainTag'⟩ := on next (by simp)
    have on' : CallsOn packages calls := fun other inside => on other (by simp [inside])
    have step : ∀ text, restampAll text (next :: calls) =
        restampAll (restamp next.package.toList next.tag.toList text) calls := fun _ => rfl
    rw [step, step, lastTag]
    by_cases same : next.package = call.package
    · rw [same, restamp_restamp _ _ _ plainTag.2]
      simp
    · have distinct : call.package.toList ≠ next.package.toList :=
        fun equal => same (String.toList_inj.mp equal).symm
      rw [restamp_comm (names _ listed) (names _ listed') distinct plainTag plainTag' (quoteless _ listed)
        (quoteless _ listed'), ih (quoteless.call names listed' plainTag') on']
      simp [same]

/-- The calls for a package can be put into its last one, at the end. -/
theorem restampAll_of_lastTag {text : List Char} (quoteless : Quoteless packages text) {calls : List Call}
    (on : CallsOn packages calls) {package tag : String} (member : package ∈ packages)
    (last : lastTag package calls = some tag) :
    restampAll text calls =
      restamp package.toList tag.toList (restampAll text (calls.filter (·.package ≠ package))) := by
  induction calls generalizing text with
  | nil => simp [lastTag] at last
  | cons call calls ih =>
    obtain ⟨listed, plainTag⟩ := on call (by simp)
    have on' : CallsOn packages calls := fun other inside => on other (by simp [inside])
    have step : ∀ calls, restampAll text (call :: calls) =
        restampAll (restamp call.package.toList call.tag.toList text) calls := fun _ => rfl
    by_cases same : call.package = package
    · subst same
      rw [step, restampAll_restamp names quoteless on' listed plainTag, List.filter_cons_of_neg (by simp)]
      cases later : lastTag call.package calls with
      | none =>
        have others : calls.filter (·.package ≠ call.package) = calls :=
          List.filter_eq_self.mpr fun other inside => by simpa using lastTag_eq_none_iff.mp later other inside
        simp only [lastTag, later, if_true, Option.none_or, Option.some.injEq] at last
        rw [if_pos rfl, others, last]
      | some tag' =>
        simp only [lastTag, later, Option.some_or] at last
        rw [if_neg (by simp)]
        exact ih quoteless on' (later.trans last)
    · have last' : lastTag package calls = some tag := by simpa [lastTag, same] using last
      rw [step, List.filter_cons_of_pos (by simpa using same), step]
      exact ih (quoteless.call names listed plainTag) on' last'

/-- The text after a run depends on the last tags only. -/
theorem restampAll_congr {text : List Char} (quoteless : Quoteless packages text) {first second : List Call}
    (on : CallsOn packages first) (on' : CallsOn packages second)
    (same : ∀ package ∈ packages, lastTag package first = lastTag package second) :
    restampAll text first = restampAll text second := by
  -- On the length, since all the calls for the first package are taken out at once.
  induction count : first.length using Nat.strongRecOn generalizing first second with
  | _ n ih =>
  cases first with
  | nil =>
    have empty : second = [] := by
      apply List.eq_nil_iff_forall_not_mem.mpr
      intro call inside
      exact lastTag_eq_none_iff.mp (same _ (on' call inside).1).symm call inside rfl
    rw [empty]
  | cons call calls =>
    have listed := (on call (by simp)).1
    obtain ⟨tag, last⟩ : ∃ tag, lastTag call.package (call :: calls) = some tag := by
      rw [← Option.isSome_iff_exists, ← Option.ne_none_iff_isSome]
      intro none_
      exact lastTag_eq_none_iff.mp none_ call (by simp) rfl
    have last' := (same _ listed).symm.trans last
    have shorter : ((call :: calls).filter (·.package ≠ call.package)).length < n := by
      rw [← count, List.filter_cons_of_neg (by simp)]
      exact Nat.lt_succ_of_le (List.length_filter_le _ _)
    have others := ih _ shorter (on.filter _) (on'.filter (·.package ≠ call.package)) (fun package member => by
      rw [lastTag_filter, lastTag_filter, same package member]) rfl
    rw [restampAll_of_lastTag names quoteless on listed last, restampAll_of_lastTag names quoteless on' listed last',
      others]

end

theorem stampAll_eq {calls : List Call} (compile : ∀ call ∈ calls, searchable call.package = true) (text : String) :
    ∃ reports, stampAll text calls = .ok (String.ofList (restampAll text.toList calls), reports) := by
  induction calls generalizing text with
  | nil => exact ⟨[], by simp [stampAll, restampAll]⟩
  | cons call calls ih =>
    obtain ⟨reports, later⟩ := ih (fun other inside => compile other (by simp [inside]))
      (String.ofList (restamp call.package.toList call.tag.toList text.toList))
    rw [String.toList_ofList] at later
    exact ⟨_, stampAll_cons (compile call (by simp)) later⟩

/-- Calls for packages whose versions have no quotes: two sequences that stamp
    the same packages, each with the same last tag, end in the same text, and
    every package that the text lists then has its last tag, or its old version
    if it was not stamped. -/
theorem stampAll_order {text : String} {packages : List String}
    (names : ∀ package ∈ packages, Plain package.toList ∧ searchable package = true)
    (quoteless : ∀ package ∈ packages, ∀ value, version? text package = .ok (some value) → '"' ∉ value.toList)
    {first second : List Call} (on : CallsOn packages first) (on' : CallsOn packages second)
    (same : ∀ package ∈ packages, lastTag package first = lastTag package second) :
    ∃ final reports reports', stampAll text first = .ok (final, reports) ∧
      stampAll text second = .ok (final, reports') ∧
      ∀ package ∈ packages, ∃ old, version? text package = .ok old ∧
        version? final package = .ok (old.map fun value => (lastTag package first).getD value) := by
  have plain : ∀ package ∈ packages, Plain package.toList := fun package member => (names package member).1
  have values : Quoteless packages text.toList := by
    intro package member value start
    have read := version?_eq (names package member).2 text
    rw [start] at read
    simpa using quoteless package member _ read
  have compile : ∀ {calls}, CallsOn packages calls → ∀ call ∈ calls, searchable call.package = true :=
    fun on call inside => (names _ (on call inside).1).2
  obtain ⟨reports, run⟩ := stampAll_eq (compile on) text
  obtain ⟨reports', run'⟩ := stampAll_eq (compile on') text
  rw [← restampAll_congr plain values on on' same] at run'
  refine ⟨_, reports, reports', run, run', fun package member => ⟨_, version?_eq (names package member).2 text, ?_⟩⟩
  rw [version?_eq (names package member).2, String.toList_ofList, held_restampAll plain values on member]
  cases held package.toList text.toList with
  | none => rfl
  | some value => cases lastTag package first <;> simp

/-- A header of one package stands open right in front of the other package. -/
theorem stampAll_order_past_open_line :
    ∃ final reports reports',
      stampAll "name = \"b\" version = \"\nname = \"a\"\"version = \"1\"\nname = \"b\"\nversion = \"2\""
        [⟨"a", "x"⟩, ⟨"b", "y"⟩, ⟨"a", "z"⟩] = .ok (final, reports) ∧
      stampAll "name = \"b\" version = \"\nname = \"a\"\"version = \"1\"\nname = \"b\"\nversion = \"2\""
        [⟨"a", "z"⟩, ⟨"b", "y"⟩] = .ok (final, reports') ∧
      version? final "a" = .ok (some "z") ∧ version? final "b" = .ok (some "y") := by
  let text := "name = \"b\" version = \"\nname = \"a\"\"version = \"1\"\nname = \"b\"\nversion = \"2\""
  have readA : version? text "a" = .ok (some "1") := by decide +kernel
  have readB : version? text "b" = .ok (some "2") := by decide +kernel
  have names : ∀ package ∈ ["a", "b"], Plain package.toList ∧ searchable package = true := by decide
  have quoteless : ∀ package ∈ ["a", "b"], ∀ value, version? text package = .ok (some value) →
      '"' ∉ value.toList := by
    intro package member value read
    rcases List.mem_pair.mp member with rfl | rfl
    · rw [readA] at read
      cases read
      decide
    · rw [readB] at read
      cases read
      decide
  have on : CallsOn ["a", "b"] [⟨"a", "x"⟩, ⟨"b", "y"⟩, ⟨"a", "z"⟩] := by decide
  have on' : CallsOn ["a", "b"] [⟨"a", "z"⟩, ⟨"b", "y"⟩] := by decide
  obtain ⟨final, reports, reports', run, run', reads⟩ := stampAll_order names quoteless on on' (by decide)
  refine ⟨final, reports, reports', run, run', ?_, ?_⟩
  · obtain ⟨old, read, new⟩ := reads "a" (by decide)
    rw [readA] at read
    cases read
    exact new
  · obtain ⟨old, read, new⟩ := reads "b" (by decide)
    rw [readB] at read
    cases read
    exact new

end ReleaseStamp.Lockfile
