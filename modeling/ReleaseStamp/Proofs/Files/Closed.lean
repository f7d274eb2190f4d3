import ReleaseStamp.Proofs.Files.Growth

/-!
Trees in which all that is there lies in a directory (`Closed`). A walk through
such a tree comes to a directory or to an entry of one (`Closed.ends`), and so
the tree stays closed whatever is changed in it by path (`Closed.put_leadsTo`,
`Closed.write`, `Closed.setMode`, `Closed.makeDirectory`, `Closed.removeFile`).
-/
namespace ReleaseStamp.FileTree

variable {t t' : FileTree} {create : Bool} {links mode : Nat} {cwd dir loc : Location} {p : Path}
  {steps : List Step} {name : String} {spot : Spot} {content : Content}

/-- What is there lies in a directory. -/
def Closed (t : FileTree) : Prop :=
  ∀ dir name node, t.get? (dir ++ [name]) = some node → t.get? dir = some .directory

theorem mem_locations_iff (below : loc ≠ []) : loc ∈ t.locations ↔ ∃ node, t.get? loc = some node := by
  rw [get?, if_neg below, ← Option.isSome_iff_exists, List.lookup_isSome_iff, locations, List.mem_map]
  simp only [beq_iff_eq, @eq_comm _ loc]

/-- Only the places that the tree lists need to be looked at. -/
theorem closed_iff : t.Closed ↔ ∀ loc ∈ t.locations, t.get? loc.dropLast = some .directory := by
  constructor
  · intro closed loc listed
    rcases List.eq_nil_or_concat' loc with rfl | ⟨dir, name, rfl⟩
    · rfl
    · obtain ⟨node, here⟩ := (mem_locations_iff (by simp)).mp listed
      rw [List.dropLast_concat]
      exact closed dir name node here
  · intro listed dir name node there
    simpa using listed _ ((mem_locations_iff (by simp)).mpr ⟨node, there⟩)

instance : Decidable t.Closed := decidable_of_iff _ closed_iff.symm

/-! ## Walks -/

theorem get?_startOf (here : t.get? dir = some .directory) (p : Path) : t.get? (startOf dir p) = some .directory := by
  rw [startOf]
  split
  · rfl
  · exact here

theorem Closed.get?_dropLast (closed : t.Closed) (here : t.get? dir = some .directory) :
    t.get? dir.dropLast = some .directory := by
  rcases List.eq_nil_or_concat' dir with rfl | ⟨front, name, rfl⟩
  · rfl
  · rw [List.dropLast_concat]
    exact closed front name _ here

theorem Closed.ends (closed : t.Closed) (start : t.get? dir = some .directory)
    (leads : Leads t create links dir steps spot) :
    (∃ mid, spot = .found mid .directory ∧ t.get? mid = some .directory) ∨
      ∃ around name, t.Shows (around ++ [name]) spot ∧ t.get? around = some .directory := by
  induction leads with
  | arrive => exact .inl ⟨_, rfl, start⟩
  | stay _ ih => exact ih start
  | slash _ ih => exact ih start
  | up _ ih => exact ih (closed.get?_dropLast start)
  | enter _ here _ ih => exact ih here
  | file _ here => exact .inr ⟨_, _, .file here, start⟩
  | vacant _ here => exact .inr ⟨_, _, .vacant here, start⟩
  | @follow _ _ _ target _ _ _ _ _ ih => exact ih (get?_startOf start target)

theorem Closed.get?_of_lookupSteps (closed : t.Closed)
    (looked : t.lookupSteps create cwd p steps = .ok (.found dir .directory)) : t.get? dir = some .directory := by
  obtain ⟨-, start, leads⟩ := lookupSteps_eq_ok_iff.mp looked
  rcases closed.ends start leads with ⟨mid, same, here⟩ | ⟨around, name, leaf, -⟩
  · cases same
    exact here
  · cases leaf

/-! ## Changes -/

theorem Closed.put (closed : t.Closed) (around : t.get? dir = some .directory)
    (free : t.get? (dir ++ [name]) ≠ some .directory) (node : Node) : (t.put (dir ++ [name]) node).Closed := by
  intro above other held there
  -- No entry of the place itself is there, since it was no directory.
  have apart : above ≠ dir ++ [name] := by
    rintro rfl
    rw [get?_put_of_ne t node (by simp)] at there
    exact free (closed _ _ _ there)
  rw [get?_put_of_ne t node apart]
  by_cases same : above ++ [other] = dir ++ [name]
  · obtain ⟨rfl, -⟩ := List.append_inj' same rfl
    exact around
  · rw [get?_put_of_ne t node same] at there
    exact closed _ _ _ there

theorem Closed.erase (closed : t.Closed) (free : t.get? loc ≠ some .directory) : (t.erase loc).Closed := by
  intro above other held there
  have same : above ++ [other] ≠ loc := by
    rintro rfl
    rw [get?_erase_self t (by simp)] at there
    contradiction
  rw [get?_erase_of_ne t same] at there
  have here := closed _ _ _ there
  rw [get?_erase_of_ne t (by rintro rfl; exact free here), here]

/-- A file may be put wherever a path leads. -/
theorem Closed.put_looked (closed : t.Closed) (looked : t.lookupSteps create cwd p steps = .ok spot)
    (leaf : t.Shows loc spot) (node : Node) : (t.put loc node).Closed := by
  obtain ⟨-, start, leads⟩ := lookupSteps_eq_ok_iff.mp looked
  rcases closed.ends start leads with ⟨mid, rfl, -⟩ | ⟨around, name, shows, here⟩
  · cases leaf
  · obtain rfl := leaf.loc_eq shows
    exact closed.put here (fun there => leaf.ne_of_directory there rfl) _

theorem Closed.put_leadsTo (closed : t.Closed) (leads : t.LeadsTo cwd p loc) (node : Node) : (t.put loc node).Closed := by
  obtain ⟨shown, looked, leaf⟩ := leads
  exact closed.put_looked looked leaf node

theorem Closed.write (closed : t.Closed) (written : t.write cwd p content = .ok t') : t'.Closed := by
  obtain ⟨loc, mode, target, rfl⟩ := write_eq_ok_iff.mp written
  obtain ⟨shown, looked, leaf, -⟩ := lookup_of_writable target
  exact closed.put_looked looked leaf _

theorem Closed.setMode (closed : t.Closed) (changed : t.setMode cwd p mode = .ok t') : t'.Closed := by
  rw [FileTree.setMode] at changed
  rcases found_ : t.find cwd p with e | ⟨loc, node⟩
  · simp [found_] at changed
  cases node with
  | directory | link =>
    simp only [found_, Except.ok.injEq] at changed
    exact changed ▸ closed
  | file before content =>
    simp only [found_, Except.ok.injEq] at changed
    subst changed
    have here := get?_of_find found_
    obtain ⟨around, name, rfl⟩ := (List.eq_nil_or_concat' loc).resolve_left (ne_nil_of_shows (.file here))
    exact closed.put (closed _ _ _ here) (by simp [here]) _

theorem Closed.makeDirectory (closed : t.Closed) (made : t.makeDirectory cwd p = .ok t') : t'.Closed := by
  obtain ⟨loc, named, nothing, rfl⟩ := makeDirectory_eq_ok made
  obtain ⟨front, name, dir, -, looked, -, rfl⟩ := entry?_eq_some_iff.mp named
  exact closed.put (closed.get?_of_lookupSteps looked) (by simp [nothing]) _

theorem Closed.removeFile (closed : t.Closed) (removed : t.removeFile cwd p = .ok t') : t'.Closed := by
  rw [FileTree.removeFile] at removed
  obtain ⟨_ | loc, -, removing⟩ := bind_eq_ok_iff.mp removed
  · contradiction
  dsimp only at removing
  split at removing
  · contradiction
  · contradiction
  next node other here =>
    cases removing
    exact closed.erase (by rw [here]; exact fun same => other (Option.some.inj same))

end ReleaseStamp.FileTree
