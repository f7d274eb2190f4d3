import ReleaseStamp.Proofs.Files.Closed
import ReleaseStamp.Proofs.Files.Entries

/-!
Paths seen from a base. Both the lexical parent of a path and the join are made
of text alone, and still mean what they say: the parent of a path to a file leads
to the directory that the file's entry is in (`directory_of_find`), and a path
that is joined leads to what it leads to from there (`sameFile_join`).
-/
namespace ReleaseStamp

variable {t : FileTree} {create : Bool} {links mode : Nat} {cwd dir loc : Location} {p base r : Path}
  {front steps : List Step} {name : String} {spot : Spot} {content : Content}

/-! ## The text of a join -/

namespace Path

theorem moves_ne_nil (relative : p.isAbsolute = false) (filled : p.isEmpty = false) : p.moves ≠ [] := by
  rw [moves_eq, pieces]
  cases text : p.text.toList with
  | nil => simp [isEmpty, text] at filled
  | cons c cs =>
    have other : c ≠ '/' := by simpa [isAbsolute, text] using relative
    obtain ⟨step, first⟩ : ∃ step, stepOf? (c :: (Text.cut '/' cs).1) = some step := by
      rw [stepOf?, if_neg (by simp)]
      split_ifs <;> exact ⟨_, rfl⟩
    simp [Text.split, Text.cut, other, first]

theorem moves_empty : moves ⟨""⟩ = [] := rfl

theorem steps_eq (p : Path) : p.steps = if p.endsInSlash && !p.moves.isEmpty then p.moves ++ [.slash] else p.moves := by
  rw [moves_eq, steps]

/-- What a relative path does behind a base is what it does by itself. -/
theorem steps_join (some_ : base.isEmpty = false) (relative : r.isAbsolute = false) (filled : r.isEmpty = false) :
    (base.join r).steps = base.moves ++ r.steps := by
  have moving := moves_ne_nil relative filled
  obtain ⟨more, -, longer⟩ := FileTree.text_join some_ relative
  have ends : (base.join r).endsInSlash = r.endsInSlash := by
    rw [isEmpty, List.isEmpty_eq_false_iff] at filled
    rw [endsInSlash, endsInSlash, longer, String.toList_append, List.getLast?_append_of_ne_nil _ filled]
  rw [steps_eq, steps_eq, (moves_join some_ relative).1, ends]
  cases r.endsInSlash <;> simp [moving]

/-- A relative path goes somewhere. -/
theorem steps_ne (relative : p.isAbsolute = false) (filled : p.isEmpty = false) : p.steps ≠ [] ∧ p.steps ≠ [.slash] := by
  have moving := moves_ne_nil relative filled
  rw [moves] at moving
  constructor
  · intro none_
    simp [none_] at moving
  · intro slash
    simp [slash] at moving

theorem moves_of_steps (ends : p.steps = front ++ [.down name]) :
    p.moves = front ++ [.down name] ∧ p.endsInSlash = false := by
  rw [steps_eq] at ends
  split_ifs at ends with slash
  · have last := congrArg List.getLast? ends
    simp at last
  · exact ⟨ends, by simpa [ends] using slash⟩

/-! ## The lexical parent -/

theorem isIdle_iff {piece : List Char} : isIdle piece = true ↔ piece = [] ∨ piece = ['.'] := by
  simp [isIdle]

theorem trimIdle_concat {last : List Char} (busy : isIdle last = false) (ps : List (List Char)) :
    trimIdle (ps ++ [last]) = ps ++ [last] :=
  List.rdropWhile_concat_neg isIdle ps last (by simp [busy])

theorem dropNamed_concat {last : List Char} (busy : isIdle last = false) (ps : List (List Char)) :
    dropNamed (ps ++ [last]) = trimIdle ps := by
  rw [dropNamed, trimIdle_concat busy, List.dropLast_concat]

/-- Pieces that name nothing are no moves, or dots. -/
theorem filterMap_trimIdle (ps : List (List Char)) : ∃ stays, (∀ step ∈ stays, step = .stay) ∧
    ps.filterMap stepOf? = (trimIdle ps).filterMap stepOf? ++ stays := by
  induction ps using List.reverseRecOn with
  | nil => exact ⟨[], by simp, rfl⟩
  | append_singleton ps piece ih =>
    obtain ⟨stays, plain, whole⟩ := ih
    by_cases idle : isIdle piece = true
    · have trimmed : trimIdle (ps ++ [piece]) = trimIdle ps := List.rdropWhile_concat_pos isIdle ps piece idle
      rw [trimmed, List.filterMap_append, whole, List.append_assoc]
      refine ⟨_, ?_, rfl⟩
      intro step member
      rcases List.mem_append.mp member with before | last
      · exact plain step before
      · rcases isIdle_iff.mp idle with rfl | rfl
        · simp [stepOf?] at last
        · simpa [stepOf?] using last
    · exact ⟨[], by simp, by rw [trimIdle_concat (Bool.eq_false_iff.mpr idle), List.append_nil]⟩

theorem trimIdle_isPrefix (ps more : List (List Char)) : trimIdle ps <+: ps ++ more :=
  (List.rdropWhile_prefix isIdle ps).trans (List.prefix_append ..)

theorem text_eq_join (p : Path) : p.text = String.ofList (Text.join '/' p.pieces) := by
  rw [pieces, Text.join_split, String.ofList_toList]

theorem stepOf?_eq_none_iff {piece : List Char} : stepOf? piece = none ↔ piece = [] := by
  rw [stepOf?]
  split_ifs <;> simp_all

/-- A path that ends in an empty piece has no piece, or ends in a slash. -/
theorem endsInSlash_of_pieces {init : List (List Char)} (some_ : init ≠ []) (whole : p.pieces = init ++ [[]]) :
    p.endsInSlash = true := by
  have text : p.text.toList = Text.join '/' init ++ ['/'] := by
    rw [← Text.join_split '/' p.text.toList, ← pieces, whole, Text.join_append some_ (by simp), Text.join]
  simp [endsInSlash, text]

/-- A path that ends in a name ends with the piece of that name. -/
theorem pieces_of_steps (ends : p.steps = front ++ [.down name]) :
    ∃ init last, p.pieces = init ++ [last] ∧ isIdle last = false ∧ init.filterMap stepOf? = front := by
  obtain ⟨init, last, whole⟩ := (List.eq_nil_or_concat' p.pieces).resolve_left (Text.split_ne_nil _ _)
  obtain ⟨moved, open_⟩ := moves_of_steps ends
  have walked : init.filterMap stepOf? ++ [last].filterMap stepOf? = front ++ [.down name] := by
    rw [← List.filterMap_append, ← whole, ← moves_eq, moved]
  cases step : stepOf? last with
  | none =>
    obtain rfl := stepOf?_eq_none_iff.mp step
    have some_ : init ≠ [] := by
      rintro rfl
      simp [step] at walked
    simp [endsInSlash_of_pieces some_ whole] at open_
  | some step_ =>
    rw [List.filterMap_cons, step, List.filterMap_nil] at walked
    obtain ⟨same, down⟩ := List.append_inj' walked rfl
    refine ⟨init, last, whole, ?_, same⟩
    rw [Bool.eq_false_iff, Ne, isIdle_iff]
    rintro (rfl | rfl)
    · simp [stepOf?] at step
    · simp [stepOf?] at step
      simp [← step] at down

/-- The front of a path, by its text and by its moves. -/
structure Begins (base p : Path) (front : List Step) : Prop where
  longer : ∃ more, p.text = base.text ++ more
  absolute : base.isAbsolute = p.isAbsolute
  moves : ∃ stays, (∀ step ∈ stays, step = .stay) ∧ front = base.moves ++ stays

theorem begins_of_pieces {qs init : List (List Char)} (begins : qs <+: p.pieces)
    (filled : p.isAbsolute = true → Text.join '/' qs ≠ []) (trimmed : ∃ stays, (∀ step ∈ stays, step = .stay) ∧
      init.filterMap stepOf? = qs.filterMap stepOf? ++ stays) :
    Begins ⟨String.ofList (Text.join '/' qs)⟩ p (init.filterMap stepOf?) := by
  obtain ⟨more, longer⟩ : Text.join '/' qs <+: Text.join '/' p.pieces := Text.join_isPrefix begins
  have text : p.text = String.ofList (Text.join '/' qs) ++ String.ofList more := by
    rw [text_eq_join, ← longer, String.ofList_append]
  refine ⟨⟨_, text⟩, ?_, ?_⟩
  · cases front : Text.join '/' qs with
    | nil =>
      rw [Bool.eq_iff_iff]
      exact ⟨fun absolute => by simp [isAbsolute] at absolute, fun absolute => absurd front (filled absolute)⟩
    | cons c cs => simp [isAbsolute, text, front]
  · obtain ⟨stays, plain, same⟩ := trimmed
    refine ⟨stays, plain, ?_⟩
    rw [same, moves_eq, pieces, String.toList_ofList]
    by_cases none_ : qs = []
    · simp [none_, Text.join, Text.split, Text.cut, stepOf?]
    · rw [Text.split_join none_]
      exact fun piece member => Text.not_mem_of_mem_split '/' _ piece (begins.subset member)

theorem isAbsolute_iff : p.isAbsolute = true ↔ ∃ next rest, p.pieces = [] :: next :: rest := by
  rw [isAbsolute, beq_iff_eq, List.head?_eq_some_iff]
  constructor
  · rintro ⟨cs, text⟩
    exact ⟨_, _, by rw [pieces, text, Text.split_cons_sep, Text.split]⟩
  · rintro ⟨next, rest, pieces_⟩
    refine ⟨Text.join '/' (next :: rest), ?_⟩
    rw [← Text.join_split '/' p.text.toList, ← pieces, pieces_, Text.join, List.nil_append]

theorem begins_root {init : List (List Char)} (absolute : p.isAbsolute = true) (none_ : trimIdle init = []) :
    Begins ⟨"/"⟩ p (([] :: init).filterMap stepOf?) where
  longer := by
    rw [isAbsolute, beq_iff_eq, List.head?_eq_some_iff] at absolute
    obtain ⟨cs, text⟩ := absolute
    exact ⟨String.ofList cs, String.toList_injective (by simp [text])⟩
  absolute := absolute.symm
  moves := by
    obtain ⟨stays, plain, whole⟩ := filterMap_trimIdle init
    rw [none_] at whole
    exact ⟨stays, plain, whole⟩

/-- The parent of a path that ends in a name is what is in front of the name. -/
theorem parent?_of_steps (ends : p.steps = front ++ [.down name]) : ∃ base, p.parent? = some base ∧ Begins base p front := by
  obtain ⟨init, last, whole, busy, rfl⟩ := pieces_of_steps ends
  have named : ∀ ps, trimIdle (ps ++ [last]) ≠ [] := by
    intro ps
    rw [trimIdle_concat busy]
    simp
  rw [parent?]
  split
  next next rest pieces_ =>
    rcases List.cons_eq_append_iff.mp (pieces_.symm.trans whole) with ⟨-, single⟩ | ⟨init, rfl, rest_⟩
    · simp at single
    rw [rest_, if_neg (named init), dropNamed_concat busy]
    split
    next none_ => exact ⟨_, rfl, begins_root (isAbsolute_iff.mpr ⟨_, _, pieces_⟩) none_⟩
    next some_ =>
      -- The first slash stays in front of the other pieces.
      refine ⟨_, rfl, begins_of_pieces ?_ (fun _ => Text.join_cons_ne_nil (.inr some_)) (filterMap_trimIdle init)⟩
      rw [whole]
      exact (List.prefix_cons_inj _).mpr (trimIdle_isPrefix init _)
  next rest pieces_ =>
    rcases List.cons_eq_append_iff.mp (pieces_.symm.trans whole) with ⟨-, single⟩ | ⟨init, rfl, rest_⟩
    · obtain ⟨rfl, -⟩ := List.cons.inj single
      contradiction
    rw [rest_, if_neg (named init), dropNamed_concat busy]
    obtain ⟨stays, plain, same⟩ := filterMap_trimIdle init
    refine ⟨_, rfl, begins_of_pieces ?_ (fun _ => Text.join_cons_ne_nil (.inl (by simp))) ⟨stays, plain, ?_⟩⟩
    · rw [whole]
      exact (List.prefix_cons_inj _).mpr (trimIdle_isPrefix init _)
    · rw [List.filterMap_cons, same, List.filterMap_cons]
      rfl
  next slash dot =>
    rw [whole, if_neg (named init), dropNamed_concat busy]
    refine ⟨_, rfl, begins_of_pieces ?_ (fun absolute => ?_) (filterMap_trimIdle init)⟩
    · rw [whole]
      exact trimIdle_isPrefix init _
    · obtain ⟨next, rest, pieces_⟩ := isAbsolute_iff.mp absolute
      exact absurd pieces_ (slash next rest)

end Path

namespace FileTree

/-! ## The directory of a file -/

/-- A path to a file ends in a name. -/
theorem steps_of_find (found_ : t.find cwd p = .ok (loc, .file mode content)) :
    ∃ front name, p.steps = front ++ [.down name] := by
  obtain ⟨-, -, leads⟩ := lookupSteps_eq_ok_iff.mp (find_eq_ok_iff.mp found_)
  rcases List.eq_nil_or_concat' p.steps with none_ | ⟨front, last, whole⟩
  · rw [none_] at leads
    cases leads
  · rw [whole] at leads
    obtain ⟨dir, left, -, -, second⟩ := leads.split (by simp)
    cases last with
    | down name => exact ⟨front, name, whole⟩
    | stay | slash => cases second.idle (by simp)
    | up => cases second with | up later => cases later

/-- The parent of a path to a file leads to the directory that the entry of the
    path is in, or is empty where this is the working directory. -/
theorem directory_of_find (found_ : t.find cwd p = .ok (loc, .file mode content)) :
    ∃ base dir name, p.parent? = some base ∧ t.entry? cwd p = .ok (some (dir ++ [name])) ∧
      (base.isEmpty = true ∧ dir = cwd ∨ t.find cwd base = .ok (dir, .directory)) := by
  obtain ⟨front, name, ends⟩ := steps_of_find found_
  obtain ⟨base, parent, ⟨more, longer⟩, absolute, stays, plain, rfl⟩ := Path.parent?_of_steps ends
  have forth := (Path.moves_of_steps ends).1
  obtain ⟨dir, there, short⟩ := directory_of_lookup forth (find_eq_ok_iff.mp found_)
  refine ⟨base, dir, name, parent, entry?_eq_some_iff.mpr ⟨_, name, dir, forth, there, short, rfl⟩, ?_⟩
  obtain ⟨fit, start, leads⟩ := lookupSteps_eq_ok_iff.mp there
  -- Behind the moves of the parent there are only dots.
  rw [List.append_assoc] at leads
  obtain ⟨mid, left, -, first, second⟩ := leads.split (by simp)
  cases second.idle fun step member => by
    rcases List.mem_append.mp member with dot | slash
    · exact .inl (plain step dot)
    · exact .inr (List.mem_singleton.mp slash)
  have from_ : startOf cwd p = startOf cwd base := by rw [startOf, startOf, absolute]
  rw [from_] at start first
  cases empty : base.isEmpty with
  | false =>
    refine .inr (find_eq_ok_iff.mpr (lookupSteps_eq_ok_iff.mpr ⟨unfit?_of_longer longer empty fit, start, ?_⟩))
    exact leads_steps_iff.mpr first
  | true =>
    obtain rfl := Path.eq_of_isEmpty empty
    cases first.idle (by simp [Path.moves_empty])
    exact .inl ⟨rfl, rfl⟩

/-! ## Paths to the same file -/

/-- The one path leads from the working directory to what the other leads to from
    a directory, in reading and in writing, unless it is too long or goes along
    too many links. -/
def SameFile (t : FileTree) (cwd : Location) (p : Path) (dir : Location) (r : Path) : Prop :=
  ∀ create, t.lookup create cwd p = t.lookup create dir r ∨ t.lookup create cwd p = .error .linkLoop ∨
    t.lookup create cwd p = .error .nameTooLong ∧ pathBytes ≤ p.text.utf8ByteSize

theorem SameFile.refl : SameFile t cwd p cwd p := fun _ => .inl rfl

theorem sameFile_of_isAbsolute (absolute : r.isAbsolute = true) : SameFile t cwd r dir r := by
  intro create
  have from_ : startOf cwd r = startOf dir r := by rw [startOf, startOf, if_pos absolute, if_pos absolute]
  exact .inl (by rw [lookup, lookup, lookupSteps, lookupSteps, from_])

/-- A base that can be looked up makes a path unfit by its length at most. -/
theorem unfit?_join (fits : unfit? base = none) (relative : r.isAbsolute = false) (filled : r.isEmpty = false) :
    unfit? (base.join r) = unfit? r ∨
      unfit? (base.join r) = some .nameTooLong ∧ pathBytes ≤ (base.join r).text.utf8ByteSize := by
  have some_ := isEmpty_of_unfit? fits
  obtain ⟨more, slash, longer⟩ := text_join some_ relative
  have clear : '\x00' ∉ base.text.toList ∧ '\x00' ∉ more.toList := by
    rw [unfit?] at fits
    split_ifs at fits with nul
    exact ⟨by simpa using nul, by rcases slash with rfl | rfl <;> decide⟩
  have nul_iff : (base.join r).text.toList.contains '\x00' = r.text.toList.contains '\x00' := by
    simp [longer, clear]
  have filled_ : (base.join r).isEmpty = false := by
    rw [Path.isEmpty, List.isEmpty_eq_false_iff] at filled ⊢
    simp [longer, filled]
  have bytes : r.text.utf8ByteSize ≤ (base.join r).text.utf8ByteSize := by
    rw [longer, String.utf8ByteSize_append]
    omega
  rw [unfit?, unfit?, nul_iff, filled, filled_]
  simp only [Bool.false_eq_true, if_false]
  split_ifs with nul long short
  · exact .inl rfl
  · exact .inl rfl
  · exact .inr ⟨rfl, long⟩
  · omega
  · exact .inl rfl

/-- A path joined to the path of a directory leads to what it leads to from there. -/
theorem sameFile_join (closed : t.Closed) (found_ : t.find cwd base = .ok (dir, .directory)) (filled : r.isEmpty = false) :
    SameFile t cwd (base.join r) dir r := by
  cases absolute : r.isAbsolute with
  | true =>
    rw [Path.join, absolute, Bool.true_or, if_pos rfl]
    exact sameFile_of_isAbsolute absolute
  | false =>
    intro create
    have looked := find_eq_ok_iff.mp found_
    obtain ⟨fits, start, leads⟩ := lookupSteps_eq_ok_iff.mp looked
    have some_ := isEmpty_of_unfit? fits
    have here := closed.get?_of_lookupSteps looked
    have from_ : startOf cwd (base.join r) = startOf cwd base := by
      rw [startOf, startOf, (Path.moves_join some_ absolute).2]
    rcases unfit?_join fits absolute filled with same | ⟨long, bytes⟩
    · obtain ⟨mid, left, end_, le, onward⟩ := (leads_steps_iff.mp leads).walk_resume
      cases end_
      have walked := onward fun (_ : create = true) => Path.steps_ne absolute filled
      have there : startOf dir r = dir := by simp [startOf, absolute]
      rw [lookup, lookup, lookupSteps, lookupSteps, same, from_, if_pos start, there, if_pos here,
        Path.steps_join some_ absolute filled, walked]
      cases unfit? r with
      | some e => exact .inl rfl
      | none => exact (walk_fewer le).imp_right .inl
    · refine .inr (.inr ⟨?_, bytes⟩)
      rw [lookup, lookupSteps, long]

end FileTree

end ReleaseStamp
