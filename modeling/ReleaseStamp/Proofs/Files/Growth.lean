import ReleaseStamp.Proofs.Files.Lookups

/-!
Directories made along a path. What was there before is there still, so every
path that led to something leads there still (`Extends.find`); what is new are
directories that the path or one of its parents leads to (`grows_makeDirectories`).
-/
namespace ReleaseStamp.FileTree

variable {t t' t'' : FileTree} {create : Bool} {links : Nat} {cwd dir loc : Location} {p : Path}
  {paths more : List Path} {steps : List Step} {spot : Spot} {node : Node}

/-! ## Trees that keep what they hold -/

/-- What lies in the one tree lies in the other. -/
def Extends (t t' : FileTree) : Prop := ∀ loc node, t.get? loc = some node → t'.get? loc = some node

theorem extends_put (nothing : t.get? loc = none) (node : Node) : Extends t (t.put loc node) := by
  intro other held here
  have apart : other ≠ loc := by
    rintro rfl
    simp [nothing] at here
  rw [get?_put_of_ne t node apart, here]

/-- A walk that comes to something comes there still. -/
theorem Leads.extend (leads : Leads t create links dir steps spot) (extends_ : Extends t t')
    (there : ∀ loc, spot ≠ .vacant loc) : Leads t' create links dir steps spot := by
  induction leads with
  | arrive => exact .arrive
  | stay _ ih => exact .stay (ih there)
  | slash _ ih => exact .slash (ih there)
  | up _ ih => exact .up (ih there)
  | enter passable here _ ih => exact .enter passable (extends_ _ _ here) (ih there)
  | file passable here => exact .file passable (extends_ _ _ here)
  | vacant => exact absurd rfl (there _)
  | follow passable here _ ih => exact .follow passable (extends_ _ _ here) (ih there)

theorem Extends.lookupSteps (extends_ : Extends t t')
    (looked : t.lookupSteps create cwd p steps = .ok (.found loc node)) :
    t'.lookupSteps create cwd p steps = .ok (.found loc node) := by
  obtain ⟨fit, start, leads⟩ := lookupSteps_eq_ok_iff.mp looked
  exact lookupSteps_eq_ok_iff.mpr ⟨fit, extends_ _ _ start, leads.extend extends_ (by simp)⟩

theorem Extends.find (extends_ : Extends t t') (found_ : t.find cwd p = .ok (loc, node)) :
    t'.find cwd p = .ok (loc, node) :=
  find_eq_ok_iff.mpr (extends_.lookupSteps (find_eq_ok_iff.mp found_))

/-! ## Directories that are made -/

/-- The tree may have grown by directories that the paths lead to, and has not
    changed otherwise. -/
def Grows (cwd : Location) (paths : List Path) (t t' : FileTree) : Prop :=
  ∀ loc, t'.get? loc = t.get? loc ∨
    t.get? loc = none ∧ t'.get? loc = some .directory ∧ ∃ p ∈ paths, t'.find cwd p = .ok (loc, .directory)

theorem Grows.refl : Grows cwd paths t t := fun _ => .inl rfl

theorem Grows.mono (grows : Grows cwd paths t t') (le : paths ⊆ more) : Grows cwd more t t' := by
  intro loc
  rcases grows loc with same | ⟨nothing, made, p, member, leads⟩
  · exact .inl same
  · exact .inr ⟨nothing, made, p, le member, leads⟩

theorem Grows.extends (grows : Grows cwd paths t t') : Extends t t' := by
  intro loc node here
  rcases grows loc with same | ⟨nothing, -⟩
  · rw [same, here]
  · simp [nothing] at here

theorem Grows.trans (first : Grows cwd paths t t') (second : Grows cwd paths t' t'') : Grows cwd paths t t'' := by
  intro loc
  rcases second loc with same | ⟨nothing, made⟩
  · rcases first loc with before | ⟨nothing, made, p, member, leads⟩
    · exact .inl (same.trans before)
    · exact .inr ⟨nothing, same.trans made, p, member, second.extends.find leads⟩
  · rcases first loc with before | ⟨-, here, -⟩
    · exact .inr ⟨before ▸ nothing, made⟩
    · simp [nothing] at here

theorem makeDirectory_eq_ok (made : t.makeDirectory cwd p = .ok t') :
    ∃ loc, t.entry? cwd p = .ok (some loc) ∧ t.get? loc = none ∧ t' = t.put loc .directory := by
  rw [makeDirectory] at made
  obtain ⟨_ | loc, named, making⟩ := bind_eq_ok_iff.mp made
  · contradiction
  · cases here : t.get? loc with
    | none =>
      simp only [here, Except.ok.injEq] at making
      exact ⟨loc, named, here, making.symm⟩
    | some node => simp [here] at making

/-- The path leads to the directory that was made. -/
theorem find_of_makeDirectory (named : t.entry? cwd p = .ok (some loc)) (nothing : t.get? loc = none) :
    (t.put loc .directory).find cwd p = .ok (loc, .directory) := by
  obtain ⟨front, name, dir, forth, looked, short, rfl⟩ := entry?_eq_some_iff.mp named
  obtain ⟨fit, start, leads⟩ := lookupSteps_eq_ok_iff.mp ((extends_put nothing .directory).lookupSteps looked)
  obtain ⟨mid, left, same, -, onward⟩ := leads.resume
  cases same
  have here : (t.put (dir ++ [name]) .directory).get? (dir ++ [name]) = some .directory :=
    get?_put_self t .directory (by simp)
  have last : Leads (t.put (dir ++ [name]) .directory) false left dir [.down name, .slash]
      (.found (dir ++ [name]) .directory) := .enter ⟨by simp, short⟩ here (.slash .arrive)
  refine find_eq_ok_iff.mpr (lookupSteps_eq_ok_iff.mpr ⟨fit, start, leads_steps_iff.mpr ?_⟩)
  rw [forth, List.append_assoc]
  exact onward (by simp) last

theorem grows_of_makeDirectory (made : t.makeDirectory cwd p = .ok t') : Grows cwd [p] t t' := by
  obtain ⟨place, named, nothing, rfl⟩ := makeDirectory_eq_ok made
  intro loc
  by_cases here : loc = place
  · subst here
    have below : loc ≠ [] := by
      rintro rfl
      simp at nothing
    exact .inr ⟨nothing, get?_put_self t _ below, p, by simp, find_of_makeDirectory named nothing⟩
  · exact .inl (get?_put_of_ne t _ here)

theorem grows_ensureDirectory (cwd : Location) (p : Path) (t : FileTree) :
    Grows cwd [p] t (FileM.ensureDirectory cwd p t).2 := by
  rw [FileM.ensureDirectory]
  cases made : t.makeDirectory cwd p with
  | ok t' => exact grows_of_makeDirectory made
  | error e => exact .refl

theorem grows_ensureDirectories (cwd : Location) (paths : List Path) (t : FileTree) :
    Grows cwd paths t (FileM.ensureDirectories cwd paths t).2 := by
  induction paths with
  | nil => exact .refl
  | cons p parents ih =>
    rw [FileM.ensureDirectories]
    dsimp only
    split
    next =>
      -- The parents come first, and whatever becomes of them, only they have been made.
      have above := ih.mono (List.subset_cons_self p parents)
      rw [FileM.bind_apply]
      rcases run : FileM.ensureDirectories cwd parents t with ⟨e | _, between⟩
      · rwa [run] at above
      · rw [run] at above
        exact above.trans ((grows_ensureDirectory cwd p between).mono (by simp))
    next => exact (grows_ensureDirectory cwd p t).mono (by simp)

/-- Making a directory with all that lead to it makes nothing else, also if it fails. -/
theorem grows_makeDirectories (cwd : Location) (p : Path) (t : FileTree) :
    Grows cwd p.ancestors t (FileM.makeDirectories cwd p t).2 :=
  grows_ensureDirectories cwd p.ancestors t

end ReleaseStamp.FileTree
