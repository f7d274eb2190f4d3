import ReleaseStamp.Git.Index

/-!
The entries of an index. Adding an entry keeps every entry that can stand beside
it, in its order (`takes_add`); in an index that tells no names apart that
differ in case only, this goes for the entries that can stand beside it in any
spelling. The spelling that such an index has for a path is one of the same path
(`fold_respell`).
-/
namespace ReleaseStamp.Git

variable {entry : StagedEntry}

theorem Index.filter_insert {keep : StagedEntry → Bool} (dropped : keep entry = false) (index : Index) :
    (insert entry index).filter keep = index.filter keep := by
  induction index with
  | nil => simp [insert, dropped]
  | cons head rest ih =>
    rw [insert]
    split
    · simp [dropped]
    · simp only [List.filter_cons, ih]

/-! ## Names that differ in case -/

/-- The path as it counts where it is compared with others. -/
def Index.counted (folds : Bool) (path : String) : String := if folds then String.ofList (fold path) else path

/-- Two spellings of one path. -/
def Index.SamePath (folds : Bool) (path other : String) : Prop := counted folds path = counted folds other

/-- Two paths that cannot be entries of the same index, in their spelling or in
    any, as the index tells names apart. -/
def Index.Clash (folds : Bool) (path other : String) : Prop := collide (counted folds path) (counted folds other) = true

instance (folds : Bool) (path other : String) : Decidable (Index.Clash folds path other) :=
  inferInstanceAs (Decidable (_ = true))

theorem Index.isBelow_counted {folds : Bool} {path other : String} (below : isBelow path other = true) :
    isBelow (counted folds path) (counted folds other) = true := by
  cases folds with
  | false => exact below
  | true =>
    obtain ⟨rest, spelled⟩ := List.isPrefixOf_iff_prefix.mp below
    refine List.isPrefixOf_iff_prefix.mpr ⟨rest.map Char.toLower, ?_⟩
    simp [counted, fold, ConfigFile.lower, ← spelled]

theorem Index.clash_of_collide {folds : Bool} {path other : String} (collides : collide path other = true) :
    Clash folds path other := by
  simp only [collide, Bool.or_eq_true, beq_iff_eq] at collides
  simp only [Clash, collide, Bool.or_eq_true, beq_iff_eq]
  rcases collides with (same | below) | above
  · exact .inl (.inl (congrArg _ same))
  · exact .inl (.inr (isBelow_counted below))
  · exact .inr (isBelow_counted above)

/-- The entries that can stand beside an entry stay as they are, in their order. -/
theorem Index.filter_add (folds : Bool) (entry : StagedEntry) (index : Index) :
    (add entry index).filter (fun other => ¬ Clash folds entry.path other.path) =
      index.filter fun other => ¬ Clash folds entry.path other.path := by
  have itself : Clash folds entry.path entry.path := clash_of_collide (by simp [collide])
  rw [add, filter_insert (by simp [itself]), List.filter_filter]
  refine List.filter_congr fun other _ => ?_
  by_cases collides : collide entry.path other.path = true
  · have clash : Clash folds entry.path other.path := clash_of_collide collides
    simp [clash]
  · simp [collides]

/-- An entry has taken its place in an index: only those went that cannot stand
    beside it, and the rest are in their order. -/
structure Takes (folds : Bool) (entry : StagedEntry) (old new : Index) : Prop where
  recorded : entry ∈ new
  beside : folds = false → ∀ other ∈ new, other = entry ∨ Index.collide entry.path other.path = false
  kept : new.filter (fun other => ¬ Index.Clash folds entry.path other.path) =
    old.filter fun other => ¬ Index.Clash folds entry.path other.path

/-- A path has been recorded with these bytes, in a spelling that the index has
    for it. -/
def Adds (folds : Bool) (path : String) (data : ByteArray) (old new : Index) : Prop :=
  ∃ spelled executable, Index.SamePath folds spelled path ∧ Takes folds ⟨spelled, executable, .bytes data⟩ old new

theorem takes_add (folds : Bool) (entry : StagedEntry) (old : Index) : Takes folds entry old (old.add entry) where
  recorded := Index.mem_add.mpr (.inl rfl)
  beside := fun _ _ member => (Index.mem_add.mp member).imp_right And.right
  kept := Index.filter_add folds entry old

/-! ## Respelling -/

/-- A path whose front is taken from one that spells it in another way. -/
theorem Index.lower_splice {path known : List Char} {count : Nat} (within : count ≤ path.length)
    (begins : ConfigFile.lower (path.take count) <+: ConfigFile.lower known) :
    ConfigFile.lower (known.take count ++ path.drop count) = ConfigFile.lower path := by
  have front : ConfigFile.lower (known.take count) = ConfigFile.lower (path.take count) := by
    have same := List.prefix_iff_eq_take.mp begins
    simpa [ConfigFile.lower, List.map_take, within] using same.symm
  calc ConfigFile.lower (known.take count ++ path.drop count)
      = ConfigFile.lower (path.take count) ++ ConfigFile.lower (path.drop count) := by
        rw [← front]
        exact List.map_append
    _ = ConfigFile.lower path := by
        rw [ConfigFile.lower, ConfigFile.lower, ← List.map_append, List.take_append_drop, ConfigFile.lower]

theorem Index.begins_of_known {index : Index} {front : List Char} {entry : StagedEntry}
    (found : (index.find? (front.isPrefixOf ·.path.toList)).or
      (index.find? ((ConfigFile.lower front).isPrefixOf <| fold ·.path)) = some entry) :
    ConfigFile.lower front <+: fold entry.path := by
  rcases Option.or_eq_some_iff.mp found with exact_ | ⟨-, folded⟩
  · have begins : front <+: entry.path.toList := by simpa using List.find?_some exact_
    exact begins.map Char.toLower
  · simpa using List.find?_some folded

/-- A path in the spelling of an index differs from itself in case only. -/
theorem Index.lower_respellDirectory (index : Index) (path : List Char) :
    ConfigFile.lower (respellDirectory index path) = ConfigFile.lower path := by
  rw [respellDirectory]
  cases known : (List.range path.length).reverse.findSome? _ with
  | none => rfl
  | some spelled =>
    obtain ⟨count, among, chosen⟩ := List.exists_of_findSome?_eq_some known
    have within : count < path.length := by simpa using among
    dsimp only at chosen
    split at chosen
    · obtain ⟨entry, found, rfl⟩ := Option.map_eq_some_iff.mp chosen
      exact lower_splice within (begins_of_known found)
    · contradiction

theorem Index.fold_respell (index : Index) (path : String) : fold (respell index path) = fold path := by
  rw [respell]
  split
  next entry found => simpa using List.find?_some found
  next => simp [fold, lower_respellDirectory]

theorem Index.samePath_respell (index : Index) (path : String) : SamePath true (respell index path) path :=
  congrArg String.ofList (fold_respell index path)

end ReleaseStamp.Git
