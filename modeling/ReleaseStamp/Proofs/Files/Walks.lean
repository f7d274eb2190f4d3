import Mathlib.Data.List.Basic
import ReleaseStamp.Files.Access

/-!
Walks through a file tree as a relation (`Leads`), one rule for each kind of
step. A walk splits at any directory on its way and goes on from there
(`Leads.split`, `Leads.resume`), and a change of what lies at one leaf of the
tree is seen by the walks that end there and by no other (`Leads.reread`).
-/
namespace ReleaseStamp

/-- A name that a walk can pass, with the steps that follow it. -/
def Passable (create : Bool) (name : String) (rest : List Step) : Prop :=
  ¬ (create = true ∧ rest = [.slash]) ∧ name.utf8ByteSize ≤ nameBytes

namespace FileTree

/-- A walk from a directory that follows at most as many links as given. -/
inductive Leads (t : FileTree) (create : Bool) : Nat → Location → List Step → Spot → Prop where
  | arrive {links : Nat} {dir : Location} : Leads t create links dir [] (.found dir .directory)
  | stay {links : Nat} {dir : Location} {rest : List Step} {spot : Spot} :
      Leads t create links dir rest spot → Leads t create links dir (.stay :: rest) spot
  | slash {links : Nat} {dir : Location} {rest : List Step} {spot : Spot} :
      Leads t create links dir rest spot → Leads t create links dir (.slash :: rest) spot
  | up {links : Nat} {dir : Location} {rest : List Step} {spot : Spot} :
      Leads t create links dir.dropLast rest spot → Leads t create links dir (.up :: rest) spot
  | enter {links : Nat} {dir : Location} {name : String} {rest : List Step} {spot : Spot} :
      Passable create name rest → t.get? (dir ++ [name]) = some .directory →
      Leads t create links (dir ++ [name]) rest spot → Leads t create links dir (.down name :: rest) spot
  | file {links : Nat} {dir : Location} {name : String} {mode : Nat} {content : Content} :
      Passable create name [] → t.get? (dir ++ [name]) = some (.file mode content) →
      Leads t create links dir [.down name] (.found (dir ++ [name]) (.file mode content))
  | vacant {links : Nat} {dir : Location} {name : String} :
      Passable create name [] → t.get? (dir ++ [name]) = none →
      Leads t create links dir [.down name] (.vacant (dir ++ [name]))
  | follow {links : Nat} {dir : Location} {name : String} {target : Path} {rest : List Step} {spot : Spot} :
      Passable create name rest → t.get? (dir ++ [name]) = some (.link target) →
      Leads t create links (startOf dir target) (target.steps ++ rest) spot →
      Leads t create (links + 1) dir (.down name :: rest) spot

variable {t t' : FileTree} {create : Bool} {links : Nat} {cwd dir loc : Location} {steps rest : List Step}
  {spot other : Spot} {p : Path} {node : Node}

/-! ## The walk function -/

theorem walk_nil : t.walk create links dir [] = .ok (.found dir .directory) := by
  cases links <;> rw [walk, walkWith]

theorem walk_stay : t.walk create links dir (.stay :: rest) = t.walk create links dir rest := by
  cases links <;> rw [walk, walkWith]

theorem walk_slash : t.walk create links dir (.slash :: rest) = t.walk create links dir rest := by
  cases links <;> rw [walk, walkWith]

theorem walk_up : t.walk create links dir (.up :: rest) = t.walk create links dir.dropLast rest := by
  cases links <;> rw [walk, walkWith]

/-- One step down, once the name is fit to be passed. -/
theorem walk_down {name : String} (passable : Passable create name rest) :
    t.walk create links dir (.down name :: rest) =
      match t.get? (dir ++ [name]) with
      | none => if rest = [] then .ok (.vacant (dir ++ [name])) else .error .notFound
      | some .directory => t.walk create links (dir ++ [name]) rest
      | some (.file mode content) =>
        if rest = [] then .ok (.found (dir ++ [name]) (.file mode content)) else .error .notADirectory
      | some (.link target) =>
        match links with
        | 0 => .error .linkLoop
        | more + 1 => t.walk create more (startOf dir target) (target.steps ++ rest) := by
  have open_ : (create && rest == [.slash]) = false := by
    simpa using passable.1
  have short : ¬ nameBytes < name.utf8ByteSize := Nat.not_lt.mpr passable.2
  cases links with
  | zero => rcases here : t.get? (dir ++ [name]) with _ | _ | _ | _ <;> simp [walk, walkWith, open_, short, here]
  | succ more => rcases here : t.get? (dir ++ [name]) with _ | _ | _ | _ <;> simp [walk, walkWith, open_, short, here]

theorem walk_of_leads (leads : Leads t create links dir steps spot) : t.walk create links dir steps = .ok spot := by
  induction leads with
  | arrive => exact walk_nil
  | stay _ ih => rw [walk_stay, ih]
  | slash _ ih => rw [walk_slash, ih]
  | up _ ih => rw [walk_up, ih]
  | enter passable here _ ih => simp only [walk_down passable, here, ih]
  | file passable here => simp only [walk_down passable, here, if_true]
  | vacant passable here => simp only [walk_down passable, here, if_true]
  | follow passable here _ ih => simp only [walk_down passable, here, ih]

theorem leads_of_walkWith {follow : Path → Location → List Step → Except FileError Spot}
    (goes : ∀ {name target dir rest spot}, Passable create name rest → t.get? (dir ++ [name]) = some (.link target) →
      follow target dir rest = .ok spot → Leads t create links dir (.down name :: rest) spot)
    (walked : t.walkWith create follow dir steps = .ok spot) : Leads t create links dir steps spot := by
  induction steps generalizing dir with
  | nil =>
    rw [walkWith] at walked
    cases walked
    exact .arrive
  | cons step rest ih =>
    cases step with
    | stay => exact .stay (ih walked)
    | slash => exact .slash (ih walked)
    | up => exact .up (ih walked)
    | down name =>
      rw [walkWith] at walked
      split at walked
      · contradiction
      next open_ =>
      split at walked
      · contradiction
      next short =>
      have passable : Passable create name rest := ⟨by simpa using open_, Nat.not_lt.mp short⟩
      split at walked
      next here =>
        split at walked
        next last =>
          cases last
          cases walked
          exact .vacant passable here
        · contradiction
      next here => exact .enter passable here (ih walked)
      next here =>
        split at walked
        next last =>
          cases last
          cases walked
          exact .file passable here
        · contradiction
      next here => exact goes passable here walked

theorem leads_of_walk (walked : t.walk create links dir steps = .ok spot) : Leads t create links dir steps spot := by
  induction links generalizing dir steps spot with
  | zero =>
    apply leads_of_walkWith _ walked
    intro name target dir rest spot _ _ followed
    contradiction
  | succ links ih =>
    apply leads_of_walkWith _ walked
    intro name target dir rest spot passable here followed
    exact .follow passable here (ih followed)

theorem walk_eq_ok_iff : t.walk create links dir steps = .ok spot ↔ Leads t create links dir steps spot :=
  ⟨leads_of_walk, walk_of_leads⟩

/-! ## Links to spare, and creation -/

theorem Leads.mono (leads : Leads t create links dir steps spot) {more : Nat} (le : links ≤ more) :
    Leads t create more dir steps spot := by
  induction leads generalizing more with
  | arrive => exact .arrive
  | stay _ ih => exact .stay (ih le)
  | slash _ ih => exact .slash (ih le)
  | up _ ih => exact .up (ih le)
  | enter passable here _ ih => exact .enter passable here (ih le)
  | file passable here => exact .file passable here
  | vacant passable here => exact .vacant passable here
  | follow passable here _ ih =>
    obtain ⟨more, rfl⟩ := Nat.exists_eq_add_of_le' (Nat.lt_of_lt_of_le (Nat.succ_pos _) le)
    exact .follow passable here (ih (Nat.le_of_succ_le_succ le))

/-- The end of a walk does not depend on the links that it may still follow. -/
theorem Leads.unique {more : Nat} (one : Leads t create links dir steps spot) (two : Leads t create more dir steps other) :
    spot = other := by
  have first := walk_of_leads (one.mono (Nat.le_max_left links more))
  have second := walk_of_leads (two.mono (Nat.le_max_right links more))
  rw [first] at second
  exact Except.ok.inj second

theorem walkWith_or {follow further : Path → Location → List Step → Except FileError Spot}
    (or_ : ∀ target dir rest, follow target dir rest = further target dir rest ∨ follow target dir rest = .error .linkLoop)
    (dir : Location) (steps : List Step) :
    t.walkWith create follow dir steps = t.walkWith create further dir steps ∨
      t.walkWith create follow dir steps = .error .linkLoop := by
  induction steps generalizing dir with
  | nil => exact .inl (by rw [walkWith, walkWith])
  | cons step rest ih =>
    cases step with
    | stay => exact ih dir
    | slash => exact ih dir
    | up => exact ih dir.dropLast
    | down name =>
      rw [walkWith, walkWith]
      split
      · exact .inl rfl
      split
      · exact .inl rfl
      split
      · exact .inl rfl
      · exact ih _
      · exact .inl rfl
      · exact or_ ..

/-- With fewer links to follow a walk comes to the same end, or runs out of them. -/
theorem walk_fewer {left : Nat} (le : left ≤ links) : t.walk create left dir steps = t.walk create links dir steps ∨
    t.walk create left dir steps = .error .linkLoop := by
  induction left generalizing links dir steps with
  | zero =>
    rw [walk]
    cases links with
    | zero => exact walkWith_or (fun _ _ _ => .inr rfl) dir steps
    | succ more => exact walkWith_or (fun _ _ _ => .inr rfl) dir steps
  | succ left ih =>
    obtain ⟨more, rfl⟩ := Nat.exists_eq_add_of_le' (Nat.lt_of_lt_of_le (Nat.succ_pos _) le)
    rw [walk, walk]
    exact walkWith_or (fun _ _ _ => ih (Nat.le_of_succ_le_succ le)) dir steps

theorem Leads.toLookup (leads : Leads t create links dir steps spot) : Leads t false links dir steps spot := by
  have weaker : ∀ {name rest}, Passable create name rest → Passable false name rest :=
    fun passable => ⟨by simp, passable.2⟩
  induction leads with
  | arrive => exact .arrive
  | stay _ ih => exact .stay ih
  | slash _ ih => exact .slash ih
  | up _ ih => exact .up ih
  | enter passable here _ ih => exact .enter (weaker passable) here ih
  | file passable here => exact .file (weaker passable) here
  | vacant passable here => exact .vacant (weaker passable) here
  | follow passable here _ ih => exact .follow (weaker passable) here ih

/-! ## Directories on the way -/

/-- A slash may stand behind the way to a directory. -/
theorem Leads.concat_slash {mid : Location} (leads : Leads t false links dir steps (.found mid .directory)) :
    Leads t false links dir (steps ++ [.slash]) (.found mid .directory) := by
  generalize ends : Spot.found mid .directory = spot at leads ⊢
  induction leads with
  | arrive => exact .slash .arrive
  | stay _ ih => exact .stay (ih ends)
  | slash _ ih => exact .slash (ih ends)
  | up _ ih => exact .up (ih ends)
  | enter passable here _ ih => exact .enter ⟨by simp, passable.2⟩ here (ih ends)
  | file => cases ends
  | vacant => cases ends
  | follow passable here _ ih =>
    refine .follow ⟨by simp, passable.2⟩ here ?_
    have later := ih ends
    rwa [List.append_assoc] at later

/-- A walk that goes on after some steps has come to a directory there. -/
theorem Leads.split {front : List Step} (leads : Leads t false links dir (front ++ rest) spot) (onward : rest ≠ []) :
    ∃ mid left, left ≤ links ∧ Leads t false links dir (front ++ [.slash]) (.found mid .directory) ∧
      Leads t false left mid rest spot := by
  have at_once : ∀ {links dir steps spot}, Leads t false links dir steps spot → ∃ mid left, left ≤ links ∧
      Leads t false links dir ([] ++ [.slash]) (.found mid .directory) ∧ Leads t false left mid steps spot :=
    fun leads => ⟨_, _, Nat.le_refl _, .slash .arrive, leads⟩
  generalize whole : front ++ rest = steps at leads
  induction leads generalizing front with
  | arrive => simp [onward] at whole
  | stay later ih =>
    cases front with
    | nil => exact at_once (by simpa [← whole] using later.stay)
    | cons step front =>
      obtain ⟨rfl, rfl⟩ := List.cons.inj whole
      obtain ⟨mid, left, le, first, second⟩ := ih rfl
      exact ⟨mid, left, le, .stay first, second⟩
  | slash later ih =>
    cases front with
    | nil => exact at_once (by simpa [← whole] using later.slash)
    | cons step front =>
      obtain ⟨rfl, rfl⟩ := List.cons.inj whole
      obtain ⟨mid, left, le, first, second⟩ := ih rfl
      exact ⟨mid, left, le, .slash first, second⟩
  | up later ih =>
    cases front with
    | nil => exact at_once (by simpa [← whole] using later.up)
    | cons step front =>
      obtain ⟨rfl, rfl⟩ := List.cons.inj whole
      obtain ⟨mid, left, le, first, second⟩ := ih rfl
      exact ⟨mid, left, le, .up first, second⟩
  | enter passable here later ih =>
    cases front with
    | nil => exact at_once (by simpa [← whole] using later.enter passable here)
    | cons step front =>
      obtain ⟨rfl, rfl⟩ := List.cons.inj whole
      obtain ⟨mid, left, le, first, second⟩ := ih rfl
      exact ⟨mid, left, le, .enter ⟨by simp, passable.2⟩ here first, second⟩
  | file passable here =>
    cases front with
    | nil => exact at_once (by simpa [← whole] using Leads.file passable here)
    | cons step front => simp [onward] at whole
  | vacant passable here =>
    cases front with
    | nil => exact at_once (by simpa [← whole] using Leads.vacant passable here)
    | cons step front => simp [onward] at whole
  | follow passable here later ih =>
    cases front with
    | nil => exact at_once (by simpa [← whole] using later.follow passable here)
    | cons step front =>
      obtain ⟨rfl, rfl⟩ := List.cons.inj whole
      -- The target of the link comes in front of what remains.
      obtain ⟨mid, left, le, first, second⟩ := ih (List.append_assoc ..)
      rw [List.append_assoc] at first
      exact ⟨mid, left, Nat.le_succ_of_le le, .follow ⟨by simp, passable.2⟩ here first, second⟩

/-- A walk that comes to a directory goes on from there, with the links that
    it has not followed yet, wherever it leads to or fails. -/
theorem Leads.walk_resume {front : List Step} (leads : Leads t false links dir (front ++ [.slash]) spot) :
    ∃ mid left, spot = .found mid .directory ∧ left ≤ links ∧
      ∀ {create rest}, (create = true → rest ≠ [] ∧ rest ≠ [.slash]) →
        t.walk create links dir (front ++ rest) = t.walk create left mid rest := by
  have open_ : ∀ {create rest name front}, Passable false name (front ++ [.slash]) →
      (create = true → rest ≠ [] ∧ rest ≠ [.slash]) → Passable create name (front ++ rest) := by
    intro create rest name front passable fit
    refine ⟨fun ⟨creating, ending⟩ => ?_, passable.2⟩
    rcases List.append_eq_singleton_iff.mp ending with ⟨-, last⟩ | ⟨-, last⟩
    · exact (fit creating).2 last
    · exact (fit creating).1 last
  generalize whole : front ++ [.slash] = steps at leads
  induction leads generalizing front with
  | arrive => simp at whole
  | stay later ih =>
    cases front with
    | nil => simp at whole
    | cons step front =>
      obtain ⟨rfl, rfl⟩ := List.cons.inj whole
      obtain ⟨mid, left, end_, le, onward⟩ := ih rfl
      exact ⟨mid, left, end_, le, fun fit => walk_stay.trans (onward fit)⟩
  | @slash links dir rest spot later ih =>
    cases front with
    | nil =>
      obtain ⟨-, rfl⟩ := List.cons.inj whole
      cases later
      exact ⟨dir, links, rfl, Nat.le_refl _, fun _ => rfl⟩
    | cons step front =>
      obtain ⟨rfl, rfl⟩ := List.cons.inj whole
      obtain ⟨mid, left, end_, le, onward⟩ := ih rfl
      exact ⟨mid, left, end_, le, fun fit => walk_slash.trans (onward fit)⟩
  | up later ih =>
    cases front with
    | nil => simp at whole
    | cons step front =>
      obtain ⟨rfl, rfl⟩ := List.cons.inj whole
      obtain ⟨mid, left, end_, le, onward⟩ := ih rfl
      exact ⟨mid, left, end_, le, fun fit => walk_up.trans (onward fit)⟩
  | enter passable here later ih =>
    cases front with
    | nil => simp at whole
    | cons step front =>
      obtain ⟨rfl, rfl⟩ := List.cons.inj whole
      obtain ⟨mid, left, end_, le, onward⟩ := ih rfl
      refine ⟨mid, left, end_, le, fun fit => ?_⟩
      rw [List.cons_append, walk_down (open_ passable fit), here]
      exact onward fit
  | file passable here =>
    have last := congrArg List.getLast? whole
    simp at last
  | vacant passable here =>
    have last := congrArg List.getLast? whole
    simp at last
  | follow passable here later ih =>
    cases front with
    | nil => simp at whole
    | cons step front =>
      obtain ⟨rfl, rfl⟩ := List.cons.inj whole
      obtain ⟨mid, left, end_, le, onward⟩ := ih (List.append_assoc ..)
      refine ⟨mid, left, end_, Nat.le_succ_of_le le, fun fit => ?_⟩
      rw [List.cons_append, walk_down (open_ passable fit), here]
      dsimp only
      rw [← List.append_assoc]
      exact onward fit

theorem Leads.resume {front : List Step} (leads : Leads t false links dir (front ++ [.slash]) spot) :
    ∃ mid left, spot = .found mid .directory ∧ left ≤ links ∧
      ∀ {create rest other}, (create = true → rest ≠ [] ∧ rest ≠ [.slash]) →
        Leads t create left mid rest other → Leads t create links dir (front ++ rest) other := by
  obtain ⟨mid, left, end_, le, onward⟩ := leads.walk_resume
  exact ⟨mid, left, end_, le, fun fit second => leads_of_walk ((onward fit).trans (walk_of_leads second))⟩

theorem Leads.without_slash (leads : Leads t false links dir (steps ++ [.slash]) spot) : Leads t false links dir steps spot := by
  obtain ⟨mid, left, same, -, onward⟩ := leads.resume
  have walked := onward (by simp) (.arrive : Leads t false left mid [] _)
  rwa [List.append_nil, ← same] at walked

/-- A walk that comes to a file ends with its name, so that it may as well be a
    walk to create the file. -/
theorem Leads.toCreate {mode : Nat} {content : Content}
    (leads : Leads t false links dir steps (.found loc (.file mode content))) (create : Bool) :
    Leads t create links dir steps (.found loc (.file mode content)) := by
  -- Behind a slash a walk ends at a directory.
  have open_ : ∀ front {links dir name rest}, Passable false name rest →
      Leads t false links dir (front ++ rest) (.found loc (.file mode content)) → Passable create name rest := by
    intro front links dir name rest passable later
    refine ⟨fun ⟨_, ends⟩ => ?_, passable.2⟩
    rw [ends] at later
    obtain ⟨mid, -, same, -⟩ := later.resume
    cases same
  generalize ends : Spot.found loc (.file mode content) = spot at leads open_ ⊢
  induction leads with
  | arrive => exact .arrive
  | stay _ ih => exact .stay (ih ends open_)
  | slash _ ih => exact .slash (ih ends open_)
  | up _ ih => exact .up (ih ends open_)
  | enter passable here later ih => exact .enter (open_ [] passable later) here (ih ends open_)
  | file passable here => exact .file ⟨by simp, passable.2⟩ here
  | vacant passable here => exact .vacant ⟨by simp, passable.2⟩ here
  | follow passable here later ih => exact .follow (open_ _ passable later) here (ih ends open_)

/-! ## A changed leaf -/

/-- What a walk finds at a location that is no directory and no link. -/
inductive Shows (t : FileTree) (loc : Location) : Spot → Prop where
  | vacant : t.get? loc = none → Shows t loc (.vacant loc)
  | file {mode : Nat} {content : Content} :
      t.get? loc = some (.file mode content) → Shows t loc (.found loc (.file mode content))

/-- The trees differ at one location at most. -/
def SameBut (loc : Location) (t t' : FileTree) : Prop := ∀ other, other ≠ loc → t'.get? other = t.get? other

theorem Shows.ne_of_directory {shown : Spot} (leaf : t.Shows loc shown) (here : t.get? dir = some .directory) :
    dir ≠ loc := by
  rintro rfl
  cases leaf with
  | vacant nothing => simp [nothing] at here
  | file there => simp [there] at here

theorem Shows.ne_of_link {shown : Spot} {target : Path} (leaf : t.Shows loc shown)
    (here : t.get? dir = some (.link target)) : dir ≠ loc := by
  rintro rfl
  cases leaf with
  | vacant nothing => simp [nothing] at here
  | file there => simp [there] at here

/-- A walk after the change of one leaf: it sees the change if it ends there,
    and nothing of it if it does not. -/
theorem Leads.reread {shown spot' : Spot} (leads : Leads t create links dir steps spot) (off : SameBut loc t t')
    (leaf : t.Shows loc shown) (now : t.Shows loc spot ∧ t'.Shows loc spot' ∨ ¬ t.Shows loc spot ∧ spot' = spot) :
    Leads t' create links dir steps spot' := by
  induction leads with
  | @arrive links dir =>
    rcases now with ⟨here, -⟩ | ⟨-, rfl⟩
    · cases here
    · exact .arrive
  | stay _ ih => exact .stay (ih now)
  | slash _ ih => exact .slash (ih now)
  | up _ ih => exact .up (ih now)
  | enter passable here _ ih => exact .enter passable ((off _ (leaf.ne_of_directory here)).trans here) (ih now)
  | @file links dir name mode content passable here =>
    rcases now with ⟨seen, shows⟩ | ⟨unseen, rfl⟩
    · cases seen
      cases shows with
      | vacant nothing => exact .vacant passable nothing
      | file there => exact .file passable there
    · refine .file passable ((off _ ?_).trans here)
      rintro rfl
      exact unseen (.file here)
  | @vacant links dir name passable here =>
    rcases now with ⟨seen, shows⟩ | ⟨unseen, rfl⟩
    · cases seen
      cases shows with
      | vacant nothing => exact .vacant passable nothing
      | file there => exact .file passable there
    · refine .vacant passable ((off _ ?_).trans here)
      rintro rfl
      exact unseen (.vacant here)
  | follow passable here _ ih => exact .follow passable ((off _ (leaf.ne_of_link here)).trans here) (ih now)

end FileTree
end ReleaseStamp
