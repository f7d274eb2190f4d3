import ReleaseStamp.Proofs.Files.Walks
import ReleaseStamp.Proofs.Text.Lines

/-!
Lookups, directory entries and writes before and after the change of one leaf
of the tree. A file that is written is found under its path afterwards, and
every path that leads elsewhere still leads there (`find_of_write`,
`find_reread`).
-/
namespace ReleaseStamp

/-! ## Results -/

theorem bind_eq_ok_iff {ε α β : Type} {x : Except ε α} {f : α → Except ε β} {b : β} :
    (x >>= f) = .ok b ↔ ∃ a, x = .ok a ∧ f a = .ok b := by
  cases x <;> simp [bind, Except.bind]

theorem mapError_eq_ok_iff {ε ε' α : Type} {x : Except ε α} {f : ε → ε'} {a : α} :
    x.mapError f = .ok a ↔ x = .ok a := by
  cases x <;> simp [Except.mapError]

theorem map_eq_ok_iff {ε α β : Type} {x : Except ε α} {f : α → β} {b : β} :
    x.map f = .ok b ↔ ∃ a, x = .ok a ∧ f a = b := by
  cases x <;> simp [Except.map]

theorem toOption_eq_some_iff {ε α : Type} {x : Except ε α} {a : α} : x.toOption = some a ↔ x = .ok a := by
  cases x <;> simp [Except.toOption]

theorem mapM_eq_pure {m : Type → Type} [Monad m] [LawfulMonad m] {α β : Type} {f : α → m β} {g : α → β} {as : List α}
    (each : ∀ a ∈ as, f a = pure (g a)) : as.mapM f = pure (as.map g) := by
  induction as with
  | nil => rfl
  | cons a later ih =>
    rw [List.mapM_cons, each a List.mem_cons_self, ih fun other member => each other (List.mem_cons_of_mem _ member)]
    simp

theorem FileM.bind_assoc {ε α β γ : Type} (x : FileM ε α) (f : α → FileM ε β) (g : β → FileM ε γ) :
    ((x >>= f) >>= g) = x >>= fun a => f a >>= g := by
  funext t
  rw [bind_apply, bind_apply, bind_apply]
  rcases x t with ⟨e | a, between⟩
  · rfl
  · exact bind_apply ..

theorem FileM.bind_eq_ok_iff {ε α β : Type} {x : FileM ε α} {f : α → FileM ε β} {t t' : FileTree} {b : β} :
    (x >>= f) t = (.ok b, t') ↔ ∃ a between, x t = (.ok a, between) ∧ f a between = (.ok b, t') := by
  rw [FileM.bind_apply]
  rcases x t with ⟨e | a, between⟩ <;> simp

theorem FileM.change_eq_ok_iff {ε : Type} {f : FileTree → Except ε FileTree} {t t' : FileTree} :
    FileM.change f t = (.ok (), t') ↔ f t = .ok t' := by
  rw [FileM.change]
  cases f t <;> simp

/-- What a text can be read from holds just that text. -/
theorem Content.eq_ofText {content : Content} {text : String} (decoded : content.text? = some text) :
    content = .ofText text := by
  cases content with
  | bytes data =>
    rw [Content.text?, Content.raw, String.fromUTF8?] at decoded
    split at decoded
    · cases decoded
      rfl
    · contradiction
  | index entries =>
    have none_ : (Content.index entries).text? = none := by
      rw [Content.text?, Content.raw]
      decide +kernel
    rw [none_] at decoded
    contradiction

/-- Two texts are one if their bytes are. -/
theorem Content.eq_of_raw_ofText {one other : String} (same : (ofText one).raw = (ofText other).raw) : one = other := by
  have decoded : (ofText one).text? = (ofText other).text? := by rw [text?, text?, same]
  rw [text?_ofText, text?_ofText] at decoded
  exact Option.some.inj decoded

/-! ## Moves -/

namespace Path

/-- The steps of a path without the slash at its end. -/
def moves (p : Path) : List Step := p.steps.filter (· ≠ .slash)

theorem stepOf?_ne_slash (piece : List Char) : stepOf? piece ≠ some .slash := by
  rw [stepOf?]
  split_ifs <;> simp

theorem filter_walked (p : Path) : (p.pieces.filterMap stepOf?).filter (· ≠ .slash) = p.pieces.filterMap stepOf? := by
  refine List.filter_eq_self.mpr fun step member => ?_
  obtain ⟨piece, -, named⟩ := List.mem_filterMap.mp member
  have other : step ≠ .slash := by
    rintro rfl
    exact stepOf?_ne_slash piece named
  simpa using other

theorem moves_eq (p : Path) : p.moves = p.pieces.filterMap stepOf? := by
  rw [moves, steps]
  split
  · rw [List.filter_append, filter_walked]
    simp
  · exact filter_walked p

/-- A path is its moves, and a slash only where its text ends in one. -/
theorem steps_split (p : Path) : ∃ ending, p.steps = p.moves ++ ending ∧
    (ending = [] ∨ ending = [.slash] ∧ p.endsInSlash = true) := by
  rw [moves_eq, steps]
  split
  next ends =>
    simp only [Bool.and_eq_true] at ends
    exact ⟨[.slash], rfl, .inr ⟨rfl, ends.1⟩⟩
  next => exact ⟨[], (List.append_nil _).symm, .inl rfl⟩

/-- A text that is one name of an entry. -/
structure IsName (name : String) : Prop where
  whole : Text.split '/' name.toList = [name.toList]
  move : stepOf? name.toList = some (.down name)
  short : name.utf8ByteSize ≤ nameBytes

theorem IsName.not_isAbsolute {name : String} (plain : IsName name) : isAbsolute ⟨name⟩ = false := by
  have open_ : '/' ∉ name.toList := Text.not_mem_of_mem_split '/' name.toList _ (by simp [plain.whole])
  rw [isAbsolute, Bool.eq_false_iff, Ne, beq_iff_eq]
  intro first
  exact open_ (List.mem_of_head? first)

theorem IsName.moves {name : String} (plain : IsName name) : Path.moves ⟨name⟩ = [.down name] := by
  rw [moves_eq, pieces, plain.whole]
  simp [plain.move]

/-- A relative path that is joined to a path is walked behind it. -/
theorem moves_join {base p : Path} (some_ : base.isEmpty = false) (relative : p.isAbsolute = false) :
    (base.join p).moves = base.moves ++ p.moves ∧ (base.join p).isAbsolute = base.isAbsolute := by
  have filled : base.text.toList ≠ [] := by simpa [isEmpty] using some_
  rw [join, relative, some_, moves_eq, moves_eq, moves_eq]
  simp only [Bool.or_self, Bool.false_eq_true, if_false]
  split
  next ends =>
    rw [endsInSlash, beq_iff_eq, List.getLast?_eq_some_iff] at ends
    obtain ⟨front, ends⟩ := ends
    constructor
    · rw [pieces, pieces, pieces, String.toList_append, ends, List.append_assoc, List.singleton_append, Text.split_append,
        Text.split_append, List.filterMap_append, List.filterMap_append]
      simp [Text.split, Text.cut, stepOf?]
    · simp [isAbsolute, List.head?_append_of_ne_nil _ filled]
  next =>
    constructor
    · rw [pieces, pieces, pieces, String.toList_append, String.toList_append, List.append_assoc]
      rw [show "/".toList ++ p.text.toList = '/' :: p.text.toList from rfl, Text.split_append, List.filterMap_append]
    · simp [isAbsolute, List.head?_append_of_ne_nil _ filled]

end Path

namespace FileTree

variable {t t' : FileTree} {create : Bool} {cwd loc found : Location} {p : Path} {steps : List Step}
  {spot shown : Spot} {node : Node} {content : Content}

/-! ## Lookups -/

theorem lookupSteps_eq_ok_iff : t.lookupSteps create cwd p steps = .ok spot ↔
    unfit? p = none ∧ t.get? (startOf cwd p) = some .directory ∧
      Leads t create linkLimit (startOf cwd p) steps spot := by
  rw [lookupSteps]
  cases unfit : unfit? p with
  | some e => simp
  | none =>
    by_cases start : t.get? (startOf cwd p) = some .directory
    · simp [start, walk_eq_ok_iff]
    · simp [start]

theorem find_eq_ok_iff : t.find cwd p = .ok (loc, node) ↔ t.lookup false cwd p = .ok (.found loc node) := by
  rw [find]
  rcases t.lookup false cwd p with e | spot
  · simp
  · cases spot <;> simp

theorem has_iff : t.has cwd p = true ↔ ∃ found node, t.find cwd p = .ok (found, node) := by
  rw [has]
  rcases t.find cwd p with e | ⟨found, node⟩ <;> simp [Except.toBool]

/-- What a walk ends at is a directory, or a leaf of the tree. -/
theorem Leads.shows {links : Nat} {dir : Location} (leads : Leads t create links dir steps spot) :
    (∃ mid, spot = .found mid .directory) ∨ ∃ loc, t.Shows loc spot := by
  induction leads with
  | arrive => exact .inl ⟨_, rfl⟩
  | stay _ ih => exact ih
  | slash _ ih => exact ih
  | up _ ih => exact ih
  | enter _ _ _ ih => exact ih
  | file _ here => exact .inr ⟨_, .file here⟩
  | vacant _ here => exact .inr ⟨_, .vacant here⟩
  | follow _ _ _ ih => exact ih

theorem shows_of_lookup (looked : t.lookup create cwd p = .ok spot) :
    (∃ mid, spot = .found mid .directory) ∨ ∃ loc, t.Shows loc spot :=
  (lookupSteps_eq_ok_iff.mp looked).2.2.shows

theorem get?_of_find {mode : Nat} (found : t.find cwd p = .ok (loc, .file mode content)) :
    t.get? loc = some (.file mode content) := by
  rcases shows_of_lookup (find_eq_ok_iff.mp found) with ⟨mid, same⟩ | ⟨at_, leaf⟩
  · simp at same
  · cases leaf
    assumption

theorem find_of_readText {text : String} (read : t.readText cwd p = .ok text) :
    ∃ loc mode content, t.find cwd p = .ok (loc, .file mode content) ∧ content.text? = some text := by
  rw [readText, readBytes] at read
  rcases found : t.find cwd p with e | ⟨loc, node⟩
  · simp [found] at read
  · cases node with
    | file mode content =>
      cases decoded : String.fromUTF8? content.raw with
      | none => simp [found, decoded] at read
      | some text' =>
        simp only [found, decoded, Except.ok.injEq] at read
        exact ⟨loc, mode, content, rfl, read ▸ decoded⟩
    | directory => simp [found] at read
    | link target => simp [found] at read

theorem readText_of_find {mode : Nat} {text : String} (found_ : t.find cwd p = .ok (loc, .file mode content))
    (decoded : content.text? = some text) : t.readText cwd p = .ok text := by
  rw [Content.text?] at decoded
  simp [readText, readBytes, found_, decoded]

theorem lookup_of_create (looked : t.lookup true cwd p = .ok spot) : t.lookup false cwd p = .ok spot := by
  obtain ⟨fit, start, leads⟩ := lookupSteps_eq_ok_iff.mp looked
  exact lookupSteps_eq_ok_iff.mpr ⟨fit, start, leads.toLookup⟩

/-! ## A changed leaf -/

theorem Shows.spot_eq {dir : Location} {name : String} {links : Nat} {rest : List Step}
    (leaf : t.Shows (dir ++ [name]) shown) (leads : Leads t false links dir (.down name :: rest) spot) : spot = shown := by
  cases leaf with
  | vacant nothing =>
    cases leads with
    | vacant => rfl
    | enter _ here => simp [nothing] at here
    | file _ here => simp [nothing] at here
    | follow _ here => simp [nothing] at here
  | file there =>
    cases leads with
    | file _ here =>
      rw [there] at here
      cases here
      rfl
    | enter _ here => simp [there] at here
    | vacant _ here => simp [there] at here
    | follow _ here => simp [there] at here

theorem Shows.loc_eq {other : Location} (leaf : t.Shows loc spot) (again : t'.Shows other spot) : other = loc := by
  cases leaf <;> cases again <;> rfl

theorem Shows.vacant_eq (leaf : t.Shows loc (.vacant found)) : found = loc := by
  cases leaf
  rfl

theorem lookupSteps_reread {spot' : Spot} (looked : t.lookupSteps create cwd p steps = .ok spot)
    (off : SameBut loc t t') (leaf : t.Shows loc shown)
    (now : t.Shows loc spot ∧ t'.Shows loc spot' ∨ ¬ t.Shows loc spot ∧ spot' = spot) :
    t'.lookupSteps create cwd p steps = .ok spot' := by
  obtain ⟨fit, start, leads⟩ := lookupSteps_eq_ok_iff.mp looked
  refine lookupSteps_eq_ok_iff.mpr ⟨fit, ?_, leads.reread off leaf now⟩
  rw [off _ (leaf.ne_of_directory start), start]

/-- A path that leads elsewhere leads there still. -/
theorem find_reread (found_ : t.find cwd p = .ok (found, node)) (off : SameBut loc t t') (leaf : t.Shows loc shown)
    (apart : found ≠ loc) : t'.find cwd p = .ok (found, node) := by
  have looked := find_eq_ok_iff.mp found_
  refine find_eq_ok_iff.mpr (lookupSteps_reread looked off leaf (.inr ⟨?_, rfl⟩))
  intro shows
  cases shows
  exact apart rfl

theorem isDirectory_iff : t.isDirectory cwd p = true ↔ ∃ dir, t.find cwd p = .ok (dir, .directory) := by
  rw [isDirectory]
  rcases t.find cwd p with e | ⟨dir, node⟩
  · simp
  · cases node <;> simp

theorem isDirectory_reread (directory : t.isDirectory cwd p = true) (off : SameBut loc t t') (leaf : t.Shows loc shown) :
    t'.isDirectory cwd p = true := by
  obtain ⟨dir, found_⟩ := isDirectory_iff.mp directory
  refine isDirectory_iff.mpr ⟨dir, find_eq_ok_iff.mpr ?_⟩
  refine lookupSteps_reread (find_eq_ok_iff.mp found_) off leaf (.inr ⟨?_, rfl⟩)
  intro shows
  cases shows

/-! ## Writing -/

theorem sameBut_put (node : Node) : SameBut loc t (t.put loc node) :=
  fun _ ne => get?_put_of_ne t node ne

theorem sameBut_erase : SameBut loc t (t.erase loc) := fun _ ne => get?_erase_of_ne t ne

theorem SameBut.refl : SameBut loc t t := fun _ _ => rfl

theorem SameBut.symm (off : SameBut loc t t') : SameBut loc t' t := fun other ne => (off other ne).symm

theorem SameBut.trans {t'' : FileTree} (first : SameBut loc t t') (second : SameBut loc t' t'') : SameBut loc t t'' :=
  fun other ne => (second other ne).trans (first other ne)

theorem ne_nil_of_shows (leaf : t.Shows loc shown) : loc ≠ [] := by
  rintro rfl
  exact leaf.ne_of_directory (get?_root t) rfl

theorem writable_eq_ok_iff {mode : Nat} : t.writable cwd p = .ok (loc, mode) ↔
    (∃ content, t.lookup true cwd p = .ok (.found loc (.file mode content))) ∨
      t.lookup true cwd p = .ok (.vacant loc) ∧ mode = newFileMode := by
  rw [writable]
  rcases t.lookup true cwd p with e | spot
  · simp
  · cases spot with
    | found at_ node => cases node <;> simp
    | vacant at_ => simp [eq_comm]

theorem write_eq_ok_iff : t.write cwd p content = .ok t' ↔
    ∃ loc mode, t.writable cwd p = .ok (loc, mode) ∧ t' = t.put loc (.file mode content) := by
  rw [write]
  rcases t.writable cwd p with e | ⟨loc, mode⟩
  · simp [Except.map]
  · simp [Except.map, eq_comm]

/-- A path that a file is read by can be written to. -/
theorem write_of_find {mode : Nat} (found_ : t.find cwd p = .ok (loc, .file mode content)) (new : Content) :
    t.write cwd p new = .ok (t.put loc (.file mode new)) := by
  obtain ⟨fit, start, leads⟩ := lookupSteps_eq_ok_iff.mp (find_eq_ok_iff.mp found_)
  have looked : t.lookup true cwd p = .ok (.found loc (.file mode content)) :=
    lookupSteps_eq_ok_iff.mpr ⟨fit, start, leads.toCreate true⟩
  exact write_eq_ok_iff.mpr ⟨loc, mode, writable_eq_ok_iff.mpr (.inl ⟨content, looked⟩), rfl⟩

theorem put_put (t : FileTree) (loc : Location) (one other : Node) :
    (t.put loc one).put loc other = t.put loc other := by
  simp [put]

/-- A path to a file leads to what is put in its place. -/
theorem find_put {mode : Nat} (found_ : t.find cwd p = .ok (loc, .file mode content)) (other : Nat) (new : Content) :
    (t.put loc (.file other new)).find cwd p = .ok (loc, .file other new) := by
  have here := get?_of_find found_
  have there := get?_put_self t (.file other new) (ne_nil_of_shows (.file here))
  exact find_eq_ok_iff.mpr
    (lookupSteps_reread (find_eq_ok_iff.mp found_) (sameBut_put _) (.file here) (.inl ⟨.file here, .file there⟩))

/-- One file may have changed: the one that a path leads to, or the vacant place
    at its end. -/
structure ChangesAt (t t' : FileTree) (cwd : Location) (p : Path) (loc : Location) : Prop where
  leads : ∃ shown, t.lookup false cwd p = .ok shown ∧ t.Shows loc shown
  others : SameBut loc t t'
  elsewhere : ∀ base path found node, t.find base path = .ok (found, node) → found ≠ loc →
    t'.find base path = .ok (found, node)

theorem changesAt_of_lookup (looked : t.lookup false cwd p = .ok shown) (leaf : t.Shows loc shown)
    (off : SameBut loc t t') : ChangesAt t t' cwd p loc where
  leads := ⟨shown, looked, leaf⟩
  others := off
  elsewhere := fun _ _ _ _ there apart => find_reread there off leaf apart

/-- A write goes to a leaf, and a file that is there keeps its mode. -/
theorem lookup_of_writable {mode : Nat} (target : t.writable cwd p = .ok (loc, mode)) :
    ∃ shown, t.lookup true cwd p = .ok shown ∧ t.Shows loc shown ∧
      ∀ old content, t.get? loc = some (.file old content) → mode = old := by
  rcases writable_eq_ok_iff.mp target with ⟨content, looked⟩ | ⟨looked, -⟩
  · have there := get?_of_find (find_eq_ok_iff.mpr (lookup_of_create looked))
    refine ⟨_, looked, .file there, fun old content here => ?_⟩
    rw [there] at here
    cases here
    rfl
  · rcases shows_of_lookup looked with ⟨mid, same⟩ | ⟨at_, leaf⟩
    · simp at same
    · obtain rfl := leaf.vacant_eq
      refine ⟨_, looked, leaf, fun old content here => ?_⟩
      cases leaf with
      | vacant nothing => simp [nothing] at here

/-- A write changes one file, and the path leads to the new one. -/
theorem find_of_write (written : t.write cwd p content = .ok t') :
    ∃ loc mode, ChangesAt t t' cwd p loc ∧ t'.find cwd p = .ok (loc, .file mode content) := by
  obtain ⟨loc, mode, target, rfl⟩ := write_eq_ok_iff.mp written
  obtain ⟨shown, looked, leaf, -⟩ := lookup_of_writable target
  have there := lookup_of_create looked
  refine ⟨loc, mode, changesAt_of_lookup there leaf (sameBut_put _), find_eq_ok_iff.mpr ?_⟩
  have now := Shows.file (get?_put_self t (.file mode content) (ne_nil_of_shows leaf))
  exact lookupSteps_reread there (sameBut_put _) leaf (.inl ⟨leaf, now⟩)

/-! ## Where paths lead -/

/-- The leaf that a path leads to, be it a file or a vacant place. -/
def LeadsTo (t : FileTree) (cwd : Location) (p : Path) (loc : Location) : Prop :=
  ∃ shown, t.lookup false cwd p = .ok shown ∧ t.Shows loc shown

theorem find_eq_file_iff {mode : Nat} : t.find cwd p = .ok (loc, .file mode content) ↔
    t.LeadsTo cwd p loc ∧ t.get? loc = some (.file mode content) := by
  constructor
  · intro found_
    have here := get?_of_find found_
    exact ⟨⟨_, find_eq_ok_iff.mp found_, .file here⟩, here⟩
  · rintro ⟨⟨shown, looked, leaf⟩, here⟩
    cases leaf with
    | vacant nothing => simp [nothing] at here
    | file there =>
      rw [there] at here
      cases here
      exact find_eq_ok_iff.mpr looked

/-- The change of one leaf leads no path elsewhere. -/
theorem LeadsTo.reread {shown' : Spot} (leads : t.LeadsTo cwd p found) (off : SameBut loc t t') (leaf : t.Shows loc shown)
    (now : t'.Shows loc shown') : t'.LeadsTo cwd p found := by
  obtain ⟨spot, looked, ends⟩ := leads
  by_cases here : found = loc
  · subst here
    exact ⟨shown', lookupSteps_reread looked off leaf (.inl ⟨ends, now⟩), now⟩
  · refine ⟨spot, lookupSteps_reread looked off leaf (.inr ⟨fun there => here (there.loc_eq ends), rfl⟩), ?_⟩
    have same := off found here
    cases ends with
    | vacant nothing => exact .vacant (same.trans nothing)
    | file there => exact .file (same.trans there)

theorem ChangesAt.leadsTo_iff {shown' : Spot} {base : Location} {path : Path} (changes : ChangesAt t t' cwd p loc)
    (now : t'.Shows loc shown') : t.LeadsTo base path found ↔ t'.LeadsTo base path found := by
  obtain ⟨shown, -, leaf⟩ := changes.leads
  exact ⟨fun leads => leads.reread changes.others leaf now, fun leads => leads.reread changes.others.symm now leaf⟩

theorem isFile_iff : t.isFile cwd p = true ↔ ∃ loc mode content, t.find cwd p = .ok (loc, .file mode content) := by
  rw [isFile]
  rcases t.find cwd p with e | ⟨loc, node⟩
  · simp
  · cases node <;> simp

/-- The path finds the same file in both trees, or a file in neither. -/
def FindsSame (t t' : FileTree) (cwd : Location) (p : Path) : Prop :=
  ∀ loc mode content, t'.find cwd p = .ok (loc, .file mode content) ↔ t.find cwd p = .ok (loc, .file mode content)

theorem FindsSame.isFile_eq (same : FindsSame t t' cwd p) : t'.isFile cwd p = t.isFile cwd p := by
  rw [Bool.eq_iff_iff, isFile_iff, isFile_iff]
  simp only [same _ _ _]

/-- A file that is written back as it was read stays as it was, by whatever path
    it is written. -/
theorem find_of_write_back {mode : Nat} {source : Path} (found_ : t.find cwd source = .ok (loc, .file mode content))
    (written : t.write cwd p content = .ok t') : t'.find cwd source = .ok (loc, .file mode content) := by
  obtain ⟨place, other, target, rfl⟩ := write_eq_ok_iff.mp written
  obtain ⟨shown, -, leaf, keeps⟩ := lookup_of_writable target
  by_cases same : loc = place
  · subst same
    obtain rfl := keeps _ _ (get?_of_find found_)
    exact find_put found_ _ _
  · exact find_reread found_ (sameBut_put _) leaf same

/-! ## Directory entries -/

theorem entry?_of_down {front : List Step} {name : String} (forth : p.moves = front ++ [.down name]) :
    t.entry? cwd p = (t.lookupSteps false cwd p (front ++ [.slash])).bind fun spot =>
      match spot with
      | .found dir _ => if nameBytes < name.utf8ByteSize then .error .nameTooLong else .ok (some (dir ++ [name]))
      | .vacant _ => .error .notFound := by
  have back : (p.steps.filter (· ≠ .slash)).reverse = .down name :: front.reverse := by
    rw [← Path.moves, forth]
    simp
  rw [ entry?, back]
  simp only [List.reverse_reverse]
  rfl

theorem entry?_of_other (other : ∀ front name, p.moves ≠ front ++ [.down name]) :
    t.entry? cwd p = (t.lookupSteps false cwd p p.moves).bind fun _ => .ok none := by
  rw [ entry?]
  split
  next name before back =>
    refine absurd ?_ (other before.reverse name)
    simpa [Path.moves] using congrArg List.reverse back
  next =>
    rw [List.reverse_reverse]
    rfl

theorem lookupSteps_directory {front : List Step} {spot : Spot}
    (looked : t.lookupSteps false cwd p (front ++ [.slash]) = .ok spot) : ∃ dir, spot = .found dir .directory := by
  obtain ⟨-, -, leads⟩ := lookupSteps_eq_ok_iff.mp looked
  obtain ⟨dir, -, same, -⟩ := leads.resume
  exact ⟨dir, same⟩

/-- A path names an entry of the directory that it leads to without its last move. -/
theorem entry?_eq_some_iff : t.entry? cwd p = .ok (some loc) ↔
    ∃ front name dir, p.moves = front ++ [.down name] ∧
      t.lookupSteps false cwd p (front ++ [.slash]) = .ok (.found dir .directory) ∧
      name.utf8ByteSize ≤ nameBytes ∧ loc = dir ++ [name] := by
  constructor
  · intro named
    by_cases down : ∃ front name, p.moves = front ++ [.down name]
    · obtain ⟨front, name, forth⟩ := down
      rw [entry?_of_down forth] at named
      rcases looked : t.lookupSteps false cwd p (front ++ [.slash]) with e | spot
      · simp [looked, Except.bind] at named
      · obtain ⟨dir, rfl⟩ := lookupSteps_directory looked
        simp only [looked, Except.bind] at named
        split at named
        · contradiction
        next short => exact ⟨front, name, dir, forth, looked, Nat.not_lt.mp short, by simpa [eq_comm] using named⟩
    · rw [entry?_of_other fun front name forth => down ⟨front, name, forth⟩] at named
      rcases looked : t.lookupSteps false cwd p p.moves with e | spot
      · simp [looked, Except.bind] at named
      · simp [looked, Except.bind] at named
  · rintro ⟨front, name, dir, forth, looked, short, rfl⟩
    rw [entry?_of_down forth, looked]
    simp [Except.bind, Nat.not_lt.mpr short]

theorem isEmpty_of_unfit? (fit : unfit? p = none) : p.isEmpty = false := by
  rw [unfit?] at fit
  cases empty : p.isEmpty with
  | false => rfl
  | true => split_ifs at fit

/-- To a directory the moves of a path lead as the whole path does. -/
theorem leads_steps_iff {links : Nat} {dir mid : Location} :
    Leads t false links dir p.steps (.found mid .directory) ↔
      Leads t false links dir (p.moves ++ [.slash]) (.found mid .directory) := by
  obtain ⟨ending, split, rfl | ⟨rfl, -⟩⟩ := p.steps_split
  · rw [split, List.append_nil]
    exact ⟨Leads.concat_slash, Leads.without_slash⟩
  · rw [split]

/-- The entry of a directory that is named behind the path of the directory. -/
theorem entry?_join {base : Path} {name : String} {dir : Location} (found_ : t.find cwd base = .ok (dir, .directory))
    (plain : Path.IsName name) (fit : unfit? (base.join ⟨name⟩) = none) :
    t.entry? cwd (base.join ⟨name⟩) = .ok (some (dir ++ [name])) := by
  obtain ⟨fits, start, leads⟩ := lookupSteps_eq_ok_iff.mp (find_eq_ok_iff.mp found_)
  obtain ⟨forth, absolute⟩ := Path.moves_join (isEmpty_of_unfit? fits) plain.not_isAbsolute
  rw [plain.moves] at forth
  have from_ : startOf cwd (base.join ⟨name⟩) = startOf cwd base := by rw [startOf, startOf, absolute]
  rw [← from_] at start leads
  have looked := lookupSteps_eq_ok_iff.mpr ⟨fit, start, leads_steps_iff.mp leads⟩
  exact entry?_eq_some_iff.mpr ⟨_, name, dir, forth, looked, plain.short, rfl⟩

theorem entry?_reread {entry : Location} (named : t.entry? cwd p = .ok (some entry)) (off : SameBut loc t t')
    (leaf : t.Shows loc shown) : t'.entry? cwd p = .ok (some entry) := by
  obtain ⟨front, name, dir, forth, looked, short, rfl⟩ := entry?_eq_some_iff.mp named
  refine entry?_eq_some_iff.mpr ⟨front, name, dir, forth, ?_, short, rfl⟩
  refine lookupSteps_reread looked off leaf (.inr ⟨?_, rfl⟩)
  intro shows
  cases shows

/-- A walk along a path, and along slashes behind it, comes to the entry that
    the path names. -/
theorem leads_of_entry? {links : Nat} {slashes : List Step} (named : t.entry? cwd p = .ok (some loc))
    (plain : ∀ step ∈ slashes, step = .slash) (leads : Leads t false links (startOf cwd p) (p.steps ++ slashes) spot) :
    ∃ dir name left rest, loc = dir ++ [name] ∧ (∀ step ∈ rest, step = .slash) ∧
      Leads t false left dir (.down name :: rest) spot := by
  obtain ⟨front, name, dir, forth, looked, -, rfl⟩ := entry?_eq_some_iff.mp named
  obtain ⟨ending, split, ends⟩ := p.steps_split
  obtain ⟨-, -, first⟩ := lookupSteps_eq_ok_iff.mp looked
  have whole : p.steps ++ slashes = front ++ (.down name :: (ending ++ slashes)) := by
    rw [split, forth]
    simp
  rw [whole] at leads
  obtain ⟨mid, left, -, again, second⟩ := leads.split (by simp)
  cases first.unique again
  refine ⟨dir, name, left, ending ++ slashes, rfl, ?_, second⟩
  intro step member
  rcases List.mem_append.mp member with inside | behind
  · rcases ends with rfl | ⟨rfl, -⟩
    · simp at inside
    · exact List.mem_singleton.mp inside
  · exact plain step behind

/-- A lookup of a path whose entry is a leaf ends there. -/
theorem lookup_of_entry? (named : t.entry? cwd p = .ok (some loc)) (open_ : p.endsInSlash = false)
    (leaf : t.Shows loc shown) (create : Bool) : t.lookup create cwd p = .ok shown := by
  obtain ⟨front, name, dir, forth, looked, short, rfl⟩ := entry?_eq_some_iff.mp named
  obtain ⟨fit, start, leads⟩ := lookupSteps_eq_ok_iff.mp looked
  obtain ⟨mid, left, same, -, onward⟩ := leads.resume
  cases same
  have last : Leads t create left dir [.down name] shown := by
    have passable : Passable create name [] := ⟨by simp, short⟩
    cases leaf with
    | vacant nothing => exact .vacant passable nothing
    | file here => exact .file passable here
  have whole : p.steps = front ++ [.down name] := by
    obtain ⟨ending, split, bare | ⟨-, ends⟩⟩ := p.steps_split
    · rw [split, bare, forth, List.append_nil]
    · simp [open_] at ends
  refine lookupSteps_eq_ok_iff.mpr ⟨fit, start, ?_⟩
  rw [whole]
  exact onward (by simp) last

theorem write_of_entry? (named : t.entry? cwd p = .ok (some loc)) (open_ : p.endsInSlash = false)
    (leaf : t.Shows loc shown) (content : Content) :
    ∃ mode, t.write cwd p content = .ok (t.put loc (.file mode content)) := by
  have looked := lookup_of_entry? named open_ leaf true
  obtain ⟨mode, target⟩ : ∃ mode, t.writable cwd p = .ok (loc, mode) := by
    cases leaf with
    | vacant nothing => exact ⟨_, writable_eq_ok_iff.mpr (.inr ⟨looked, rfl⟩)⟩
    | file here => exact ⟨_, writable_eq_ok_iff.mpr (.inl ⟨_, looked⟩)⟩
  exact ⟨mode, write_eq_ok_iff.mpr ⟨loc, mode, target, rfl⟩⟩

theorem removeFile_of_entry? {mode : Nat} (named : t.entry? cwd p = .ok (some loc))
    (here : t.get? loc = some (.file mode content)) : t.removeFile cwd p = .ok (t.erase loc) := by
  rw [removeFile, named]
  simp [bind, Except.bind, here]

theorem setMode_of_find {mode : Nat} (found_ : t.find cwd p = .ok (loc, .file mode content)) (other : Nat) :
    t.setMode cwd p other = .ok (t.put loc (.file other content)) := by
  rw [setMode, found_]

/-- A directory that a path leads to cannot be made once more. -/
theorem makeDirectory_of_isDirectory (directory : t.isDirectory cwd p = true) :
    t.makeDirectory cwd p = .error .alreadyExists := by
  obtain ⟨dir, found_⟩ := isDirectory_iff.mp directory
  obtain ⟨fit, start, leads⟩ := lookupSteps_eq_ok_iff.mp (find_eq_ok_iff.mp found_)
  obtain ⟨ending, split, ends⟩ := p.steps_split
  rw [split] at leads
  rw [makeDirectory]
  by_cases down : ∃ front name, p.moves = front ++ [.down name]
  · obtain ⟨front, name, forth⟩ := down
    rw [forth, List.append_assoc] at leads
    obtain ⟨mid, left, -, first, second⟩ := leads.split (by simp)
    have looked := lookupSteps_eq_ok_iff.mpr ⟨fit, start, first⟩
    -- The last move went into a directory or along a link.
    obtain ⟨short, here⟩ : name.utf8ByteSize ≤ nameBytes ∧ t.get? (mid ++ [name]) ≠ none := by
      cases second with
      | enter passable here => exact ⟨passable.2, by simp [here]⟩
      | follow passable here => exact ⟨passable.2, by simp [here]⟩
    obtain ⟨node, there⟩ := Option.ne_none_iff_exists'.mp here
    rw [entry?_eq_some_iff.mpr ⟨front, name, mid, forth, looked, short, rfl⟩]
    simp [bind, Except.bind, there]
  · have walked : Leads t false linkLimit (startOf cwd p) p.moves (.found dir .directory) := by
      rcases ends with rfl | ⟨rfl, -⟩
      · simpa using leads
      · exact leads.without_slash
    rw [entry?_of_other fun front name forth => down ⟨front, name, forth⟩,
      lookupSteps_eq_ok_iff.mpr ⟨fit, start, walked⟩]
    rfl

theorem ensureDirectory_of_isDirectory (directory : t.isDirectory cwd p = true) :
    FileM.ensureDirectory cwd p t = (.ok (), t) := by
  simp [FileM.ensureDirectory, makeDirectory_of_isDirectory directory, directory]

/-- Nothing is made where the directory is there already. -/
theorem makeDirectories_of_isDirectory (directory : t.isDirectory cwd p = true) :
    FileM.makeDirectories cwd p t = (.ok (), t) := by
  have first : p.ancestors = [] ∨ ∃ parents, p.ancestors = p :: parents := by
    obtain ⟨count, pieces⟩ : ∃ count, p.pieces.length = count + 1 := ⟨_, rfl⟩
    rw [Path.ancestors, pieces, Path.ancestors.go]
    split
    · split
      · exact .inl rfl
      · exact .inr ⟨_, rfl⟩
    · exact .inr ⟨_, rfl⟩
  rw [FileM.makeDirectories]
  rcases first with none_ | ⟨parents, some_⟩
  · rw [none_]
    rfl
  · rw [some_]
    simp [FileM.ensureDirectories, makeDirectory_of_isDirectory directory, ensureDirectory_of_isDirectory directory]

end FileTree

end ReleaseStamp
