import ReleaseStamp.Git.IndexFile
import ReleaseStamp.Proofs.Files.Lookups

/-!
The file that an index is written to. Links that are followed one by one come to
the place that a walk along the whole path comes to (`spot_of_target`), so an
index that was written lies where its path led before (`leadsTo_of_write`).
-/
namespace ReleaseStamp.Git

open FileTree

/-- The entries of the index at a location; there may be no file yet. -/
inductive Held (t : FileTree) (place : Location) : Index → Prop where
  | absent : t.get? place = none → Held t place []
  | file {mode : Nat} {entries : Index} : t.get? place = some (.file mode (.index entries)) → Held t place entries

/-- A file of an index has been written anew, and no other file has changed. -/
structure Updates (t t' : FileTree) (cwd : Location) (file : Path) (place : Location) (old new : Index) : Prop
    extends ChangesAt t t' cwd file place where
  before : Held t place old
  after : ∃ mode, t'.find cwd file = .ok (place, .file mode (.index new))

/-- A file of bytes is no index that can have been read. -/
theorem Updates.ne_place {t t' : FileTree} {cwd loc place : Location} {file : Path} {old new : Index} {mode : Nat}
    {data : ByteArray} (updates : Updates t t' cwd file place old new)
    (here : t.get? loc = some (.file mode (.bytes data))) : loc ≠ place := by
  rintro rfl
  cases updates.before with
  | absent nothing => simp [nothing] at here
  | file there => simp [there] at here

namespace Index

variable {t t' : FileTree} {cwd loc place : Location} {file : Path} {index old : Index} {aim last : Aim}
  {shown spot : Spot}

/-! ## Reading -/

theorem index_of_ofContent {content : Content} (read : ofContent file content = .ok old) : content = .index old := by
  cases content with
  | index entries =>
    cases read
    rfl
  | bytes data =>
    rw [ofContent] at read
    split_ifs at read

theorem held_of_read (read_ : read t cwd file = .ok old) (leads : t.LeadsTo cwd file place) : Held t place old := by
  obtain ⟨shown, looked, leaf⟩ := leads
  cases leaf with
  | vacant nothing =>
    simp only [read, FileTree.find, looked, Except.ok.injEq] at read_
    subst read_
    exact .absent nothing
  | file here =>
    simp only [read, FileTree.find, looked] at read_
    rw [index_of_ofContent read_] at here
    exact .file here

/-! ## The place of a written index -/

theorem entry?_eq_some_iff : aim.entry? t = .ok (some loc) ↔
    unfit? aim.shown = none ∧ t.entry? aim.start aim.path = .ok (some loc) := by
  rw [ Aim.entry?]
  cases unfit? aim.shown <;> simp

/-- Where a target names an entry, each aim on the way names one: a link that
    the way goes through, or the entry at its end. -/
theorem target_step {links : Nat} (aimed : target t links aim = .ok last) (named : last.entry? t = .ok (some loc)) :
    ∃ fewer entry, links = fewer + 1 ∧ aim.entry? t = .ok (some entry) ∧
      ((∃ next, t.get? entry = some (.link next) ∧ target t fewer (.through entry next) = .ok last) ∨
        entry = loc ∧ ∀ next, t.get? entry ≠ some (.link next)) := by
  cases links with
  | zero => contradiction
  | succ fewer =>
    rw [target] at aimed
    split at aimed
    next missing =>
      cases aimed
      simp [named] at missing
    next nothing =>
      cases aimed
      simp [named] at nothing
    · contradiction
    next entry here =>
      refine ⟨fewer, entry, rfl, here, ?_⟩
      split at aimed
      next next linked => exact .inl ⟨next, linked, aimed⟩
      next other =>
        cases aimed
        rw [named] at here
        cases here
        exact .inr ⟨rfl, other⟩

theorem ne_link_of_target {links : Nat} (aimed : target t links aim = .ok last)
    (named : last.entry? t = .ok (some loc)) (next : Path) : t.get? loc ≠ some (.link next) := by
  induction links generalizing aim with
  | zero => contradiction
  | succ links ih =>
    obtain ⟨fewer, entry, same, -, ⟨onward, -, further⟩ | ⟨rfl, other⟩⟩ := target_step aimed named
    · cases same
      exact ih further
    · exact other next

/-- A walk along the whole path ends where following links one by one ends. -/
theorem spot_of_target {links left : Nat} {slashes : List Step} (aimed : target t links aim = .ok last)
    (named : last.entry? t = .ok (some loc)) (leaf : t.Shows loc shown) (plain : ∀ step ∈ slashes, step = .slash)
    (leads : Leads t false left (startOf aim.start aim.path) (aim.path.steps ++ slashes) spot) : spot = shown := by
  induction links generalizing aim left slashes with
  | zero => contradiction
  | succ links ih =>
    obtain ⟨fewer, entry, same, here, next⟩ := target_step aimed named
    obtain ⟨dir, name, left, rest, rfl, plain, onward⟩ := leads_of_entry? (entry?_eq_some_iff.mp here).2 plain leads
    rcases next with ⟨next, linked, further⟩ | ⟨rfl, -⟩
    · cases same
      -- The walk follows the same link, from the directory that holds it.
      cases onward with
      | follow _ there later =>
        rw [linked] at there
        cases there
        have start : dir = (Aim.through (dir ++ [name]) next).start := by simp [Aim.through]
        rw [start] at later
        exact ih further plain later
      | enter _ there => simp [linked] at there
      | file _ there => simp [linked] at there
      | vacant _ there => simp [linked] at there
    · exact leaf.spot_eq onward

theorem target_of_writable (can : writable t cwd file = .ok place) :
    ∃ last, target t linkLimit (.direct cwd file) = .ok last ∧ last.entry? t = .ok (some place) ∧
      t.get? place ≠ some .directory := by
  rw [writable] at can
  obtain ⟨last, aimed, can⟩ := bind_eq_ok_iff.mp can
  refine ⟨last, aimed, ?_⟩
  repeat' split at can
  all_goals try contradiction
  next entry open_ =>
    cases can
    exact ⟨entry, open_⟩

theorem shows_of_writable (can : writable t cwd file = .ok place) :
    ∃ shown, t.Shows place shown ∧
      ∀ {links spot}, Leads t false links (startOf cwd file) file.steps spot → spot = shown := by
  obtain ⟨last, aimed, named, open_⟩ := target_of_writable can
  have direct := ne_link_of_target aimed named
  obtain ⟨shown, leaf⟩ : ∃ shown, t.Shows place shown := by
    rcases here : t.get? place with _ | node
    · exact ⟨_, .vacant here⟩
    · cases node with
      | directory => exact absurd here open_
      | file mode content => exact ⟨_, .file here⟩
      | link next => exact absurd here (direct next)
  refine ⟨shown, leaf, fun {links spot} leads => ?_⟩
  rw [← List.append_nil file.steps] at leads
  exact spot_of_target aimed named leaf (by simp) leads

/-- An index that was written lies where its path led before. -/
theorem leadsTo_of_write (written : write t cwd file index = .ok t') :
    ∃ place, t.LeadsTo cwd file place ∧ t' = t.put place (.file newFileMode (.index index)) := by
  rw [write] at written
  obtain ⟨place, can, written⟩ := bind_eq_ok_iff.mp written
  dsimp only at written
  split at written
  next has =>
    cases written
    refine ⟨place, ?_, rfl⟩
    obtain ⟨shown, leaf, agrees⟩ := shows_of_writable can
    have there := get?_put_self t (.file newFileMode (.index index)) (ne_nil_of_shows leaf)
    have off : SameBut place t (t.put place (.file newFileMode (.index index))) := sameBut_put _
    obtain ⟨found, node, now⟩ := has_iff.mp has
    have looked := find_eq_ok_iff.mp now
    by_cases here : (t.put place (.file newFileMode (.index index))).Shows place (.found found node)
    · exact ⟨shown, lookupSteps_reread looked off.symm (.file there) (.inl ⟨here, leaf⟩), leaf⟩
    · -- A walk that ends elsewhere ended there before, but the path led to the place.
      obtain ⟨-, -, leads⟩ := lookupSteps_eq_ok_iff.mp looked
      have same := agrees (leads.reread off.symm (.file there) (.inr ⟨here, rfl⟩))
      subst same
      rcases leads.shows with ⟨mid, same⟩ | ⟨other, shows⟩
      · rw [same] at leaf
        cases leaf
      · cases leaf.loc_eq shows
        exact absurd shows here
  · contradiction

end Index

end ReleaseStamp.Git
