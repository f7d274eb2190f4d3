import ReleaseStamp.Proofs.Files.Lookups

/-!
The directory entry behind a path. A path that ends in a name and leads
somewhere names an entry (`entry?_of_lookup`): the file that it leads to, or a
link on the way to it. The entry can be removed (`removeFile_of_find`), and then
the path leads nowhere (`has_erase`). The directory around a file is there, so
that nothing has to be made for it (`makeDirectories_of_find_join`).
-/
namespace ReleaseStamp

namespace Path

/-- A name that is joined to a path is its last move, even where the path is empty. -/
theorem exists_moves_join {name : String} (plain : IsName name) (base : Path) :
    ∃ front, (base.join ⟨name⟩).moves = front ++ [.down name] := by
  cases empty : base.isEmpty with
  | false => exact ⟨base.moves, by rw [(moves_join empty plain.not_isAbsolute).1, plain.moves]⟩
  | true => exact ⟨[], by rw [join, empty, Bool.or_true, if_pos rfl, plain.moves, List.nil_append]⟩

theorem eq_of_isEmpty {p : Path} (empty : p.isEmpty = true) : p = ⟨""⟩ := by
  cases p
  simpa [isEmpty] using empty

end Path

namespace FileTree

variable {t : FileTree} {cwd loc dir entry : Location} {p base : Path} {front steps : List Step} {links mode : Nat}
  {spot : Spot} {name : String} {node : Node} {content : Content}

/-! ## Entries that are there -/

/-- A lookup that goes to a name comes to a directory in front of it. -/
theorem directory_of_lookup (forth : p.moves = front ++ [.down name]) (looked : t.lookup false cwd p = .ok spot) :
    ∃ dir, t.lookupSteps false cwd p (front ++ [.slash]) = .ok (.found dir .directory) ∧ name.utf8ByteSize ≤ nameBytes := by
  obtain ⟨fit, start, leads⟩ := lookupSteps_eq_ok_iff.mp looked
  obtain ⟨ending, split, -⟩ := p.steps_split
  rw [split, forth, List.append_assoc] at leads
  obtain ⟨dir, left, -, first, second⟩ := leads.split (by simp)
  refine ⟨dir, lookupSteps_eq_ok_iff.mpr ⟨fit, start, first⟩, ?_⟩
  cases second with
  | enter passable => exact passable.2
  | file passable => exact passable.2
  | vacant passable => exact passable.2
  | follow passable => exact passable.2

theorem entry?_of_lookup (forth : p.moves = front ++ [.down name]) (looked : t.lookup false cwd p = .ok spot) :
    ∃ entry, t.entry? cwd p = .ok (some entry) := by
  obtain ⟨dir, there, short⟩ := directory_of_lookup forth looked
  exact ⟨_, entry?_eq_some_iff.mpr ⟨front, name, dir, forth, there, short, rfl⟩⟩

/-- Dots and slashes lead nowhere else. -/
theorem Leads.idle (leads : Leads t false links dir steps spot) (plain : ∀ step ∈ steps, step = .stay ∨ step = .slash) :
    spot = .found dir .directory := by
  induction steps with
  | nil =>
    cases leads
    rfl
  | cons step steps ih =>
    have later := fun other member => plain other (List.mem_cons_of_mem step member)
    rcases plain step (by simp) with rfl | rfl
    · cases leads with
      | stay rest => exact ih rest later
    · cases leads with
      | slash rest => exact ih rest later

/-- The entry of a path that leads to a file is a file or a link. -/
theorem get?_of_entry? (named : t.entry? cwd p = .ok (some entry)) (found_ : t.find cwd p = .ok (loc, .file mode content)) :
    ∃ node, t.get? entry = some node ∧ node ≠ .directory := by
  obtain ⟨-, -, leads⟩ := lookupSteps_eq_ok_iff.mp (find_eq_ok_iff.mp found_)
  rw [← List.append_nil p.steps] at leads
  obtain ⟨dir, name, left, rest, rfl, plain, last⟩ := leads_of_entry? named (by simp) leads
  cases last with
  | enter _ _ later => cases later.idle fun step member => .inr (plain step member)
  | file _ here => exact ⟨_, here, by simp⟩
  | follow _ here _ => exact ⟨_, here, by simp⟩

/-! ## Entries that are removed -/

theorem removeFile_of_find (forth : p.moves = front ++ [.down name])
    (found_ : t.find cwd p = .ok (loc, .file mode content)) :
    ∃ entry, t.entry? cwd p = .ok (some entry) ∧ t.removeFile cwd p = .ok (t.erase entry) := by
  obtain ⟨entry, named⟩ := entry?_of_lookup forth (find_eq_ok_iff.mp found_)
  obtain ⟨node, here, other⟩ := get?_of_entry? named found_
  refine ⟨entry, named, ?_⟩
  rw [removeFile, named]
  cases node with
  | directory => exact absurd rfl other
  | file mode content => simp [bind, Except.bind, here]
  | link target => simp [bind, Except.bind, here]

/-- Without its entry a path leads nowhere. -/
theorem has_erase (named : t.entry? cwd p = .ok (some entry)) : (t.erase entry).has cwd p = false := by
  obtain ⟨front, name, dir, forth, -, -, same⟩ := entry?_eq_some_iff.mp named
  have gone : (t.erase entry).Shows entry (.vacant entry) := .vacant (get?_erase_self t (by simp [same]))
  rw [Bool.eq_false_iff]
  intro there
  obtain ⟨found, node, found_⟩ := has_iff.mp there
  have looked := find_eq_ok_iff.mp found_
  -- A walk that passed the removed entry would end there, so the entry is the same as before.
  obtain ⟨entry', still⟩ := entry?_of_lookup forth looked
  have before := entry?_reread still sameBut_erase.symm gone
  rw [named] at before
  cases before
  obtain ⟨-, -, leads⟩ := lookupSteps_eq_ok_iff.mp looked
  rw [← List.append_nil p.steps] at leads
  obtain ⟨dir, name, left, rest, rfl, -, last⟩ := leads_of_entry? still (by simp) leads
  cases gone.spot_eq last

/-! ## The directory around a file -/

/-- The front of a path that can be looked up can be looked up by itself. -/
theorem unfit?_of_longer {more : String} (longer : p.text = base.text ++ more) (some_ : base.isEmpty = false)
    (fit : unfit? p = none) : unfit? base = none := by
  rw [unfit?, longer] at fit
  rw [unfit?, some_]
  split_ifs at fit with nul empty long
  have clear : '\x00' ∉ base.text.toList := fun member => nul (by simp [member])
  have short : ¬ pathBytes ≤ base.text.utf8ByteSize := by
    rw [String.utf8ByteSize_append] at long
    omega
  simp [clear, short]

theorem text_join (some_ : base.isEmpty = false) (relative : p.isAbsolute = false) :
    ∃ more, (more = "" ∨ more = "/") ∧ (base.join p).text = base.text ++ more ++ p.text := by
  rw [Path.join, relative, some_]
  simp only [Bool.or_self, Bool.false_eq_true, if_false]
  split
  · exact ⟨"", .inl rfl, by simp⟩
  · exact ⟨"/", .inr rfl, rfl⟩

theorem isDirectory_of_find_join (some_ : base.isEmpty = false) (plain : Path.IsName name)
    (found_ : t.find cwd (base.join ⟨name⟩) = .ok (loc, node)) : t.isDirectory cwd base = true := by
  obtain ⟨forth, absolute⟩ := Path.moves_join some_ plain.not_isAbsolute
  rw [plain.moves] at forth
  have from_ : startOf cwd (base.join ⟨name⟩) = startOf cwd base := by rw [startOf, startOf, absolute]
  obtain ⟨dir, there, -⟩ := directory_of_lookup forth (find_eq_ok_iff.mp found_)
  obtain ⟨fit, start, leads⟩ := lookupSteps_eq_ok_iff.mp there
  rw [from_] at start leads
  obtain ⟨more, -, longer⟩ := text_join some_ plain.not_isAbsolute
  rw [String.append_assoc] at longer
  have looked := lookupSteps_eq_ok_iff.mpr ⟨unfit?_of_longer longer some_ fit, start, leads_steps_iff.mpr leads⟩
  exact isDirectory_iff.mpr ⟨dir, find_eq_ok_iff.mpr looked⟩

/-- Where a name can be looked up nothing has to be made in front of it. -/
theorem makeDirectories_of_find_join (plain : Path.IsName name) (found_ : t.find cwd (base.join ⟨name⟩) = .ok (loc, node)) :
    FileM.makeDirectories cwd base t = (.ok (), t) := by
  cases empty : base.isEmpty with
  | false => exact makeDirectories_of_isDirectory (isDirectory_of_find_join empty plain found_)
  | true =>
    obtain rfl := Path.eq_of_isEmpty empty
    rfl

end FileTree

end ReleaseStamp
