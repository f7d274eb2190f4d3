import Mathlib.Logic.Function.Basic
import ReleaseStamp.Proofs.Patcher.Repetition

/-!
Patchers that stamp one package of one lockfile at the same time. Each of them
reads the lockfile in one move and writes it in a later one, with any moves of
the others in between, so that it may write a text made from an outdated one.
This does no harm, since a text that was stamped with a tag of one line is
stamped as the first text is (`Rivals.stampText`): whatever is to be written is
the first text with the tag of its writer, and the last write decides
(`last_writer_wins`).
-/
namespace ReleaseStamp.Patcher

/-- What one patcher is to do, and from which directory. -/
structure Job where
  patcher : Patcher
  directory : Location
  tag : String
deriving DecidableEq, Repr

/-- How far a patcher has come. -/
inductive Progress where
  | waiting
  /-- The lockfile has been read, and this text is still to be written. -/
  | ready (stamped : String) (change : Change)
  | ended (answer : Except PatchError Change)

/-- What a patcher that has read the lockfile makes of it. -/
def Progress.answer? : Progress → Option (Except PatchError Change)
  | .waiting => none
  | .ready _ change => some (.ok change)
  | .ended answer => some answer

/-- Where a patcher stands once it has read the lockfile. -/
def Progress.afterRead : Except PatchError (String × Change) → Progress
  | .ok (stamped, change) => .ready stamped change
  | .error e => .ended (.error e)

inductive Move (ι : Type) where
  | read (i : ι)
  | write (i : ι)
deriving DecidableEq, Repr

/-- The file tree and the patchers that work on it. -/
structure Race (ι : Type) where
  tree : FileTree
  progress : ι → Progress

variable {ι : Type}

/-- The patcher that wrote last. -/
def lastWriter : List (Move ι) → Option ι
  | [] => none
  | .read _ :: moves => lastWriter moves
  | .write i :: moves => (lastWriter moves).or (some i)

theorem lastWriter_append (moves later : List (Move ι)) :
    lastWriter (moves ++ later) = (lastWriter later).or (lastWriter moves) := by
  induction moves with
  | nil => simp [lastWriter]
  | cons move moves ih =>
    cases move with
    | read i => simpa [lastWriter] using ih
    | write i => simp [lastWriter, ih]

theorem mem_of_lastWriter {moves : List (Move ι)} {i : ι} (last : lastWriter moves = some i) : .write i ∈ moves := by
  induction moves with
  | nil => simp [lastWriter] at last
  | cons move moves ih =>
    cases move with
    | read j => exact List.mem_cons_of_mem _ (ih last)
    | write j =>
      rcases Option.or_eq_some_iff.mp last with later | ⟨-, here⟩
      · exact List.mem_cons_of_mem _ (ih later)
      · cases here
        exact List.mem_cons_self

namespace Race

def start (t : FileTree) : Race ι := ⟨t, fun _ => .waiting⟩

variable [DecidableEq ι] {jobs : ι → Job} {s s' : Race ι} {i : ι} {moves : List (Move ι)}

/-- One patcher has come further, and has left this tree. -/
def advance (s : Race ι) (i : ι) (t : FileTree) (progress : Progress) : Race ι :=
  ⟨t, Function.update s.progress i progress⟩

/-- One move. A patcher reads once, and writes once if its reading went well. -/
def move (jobs : ι → Job) (s : Race ι) : Move ι → Option (Race ι)
  | .read i =>
    match s.progress i with
    | .waiting =>
      let (made, t) := (jobs i).patcher.prepare (jobs i).directory (jobs i).tag s.tree
      some (s.advance i t (.afterRead made))
    | _ => none
  | .write i =>
    match s.progress i with
    | .ready stamped change =>
      let (done, t) := (jobs i).patcher.commit (jobs i).directory stamped s.tree
      some (s.advance i t (.ended (done.map fun _ => change)))
    | _ => none

/-- The moves one after the other, if each of them can be made. -/
def play (jobs : ι → Job) : Race ι → List (Move ι) → Option (Race ι)
  | s, [] => some s
  | s, move :: moves => (s.move jobs move).bind fun s' => s'.play jobs moves

theorem play_append (s : Race ι) (moves later : List (Move ι)) :
    s.play jobs (moves ++ later) = (s.play jobs moves).bind fun s' => s'.play jobs later := by
  induction moves generalizing s with
  | nil => rfl
  | cons move moves ih => simp [play, ih, Option.bind_assoc]

theorem play_concat_eq_some_iff {move : Move ι} {s'' : Race ι} : s.play jobs (moves ++ [move]) = some s'' ↔
    ∃ s', s.play jobs moves = some s' ∧ s'.move jobs move = some s'' := by
  simp [play_append, play, Option.bind_eq_some_iff]

theorem advance_advance (s : Race ι) (i : ι) (t t' : FileTree) (progress later : Progress) :
    (s.advance i t progress).advance i t' later = s.advance i t' later := by
  simp [advance]

/-- Without another move in between a patcher does what its run does. -/
theorem play_undisturbed (waits : s.progress i = .waiting) :
    ∃ moves, moves <+: [.read i, .write i] ∧ s.play jobs moves =
      some (s.advance i ((jobs i).patcher.run (jobs i).directory (jobs i).tag s.tree).2
        (.ended ((jobs i).patcher.run (jobs i).directory (jobs i).tag s.tree).1)) := by
  rw [run_eq_halves]
  rcases prepared : (jobs i).patcher.prepare (jobs i).directory (jobs i).tag s.tree with ⟨e | ⟨stamped, change⟩, between⟩
  · refine ⟨[.read i], by simp, ?_⟩
    rw [FileM.bind_of_error prepared]
    simp [play, move, waits, prepared, Progress.afterRead]
  · have reads : s.move jobs (.read i) = some (s.advance i between (.ready stamped change)) := by
      simp [move, waits, prepared, Progress.afterRead]
    have ready : (s.advance i between (.ready stamped change)).progress i = .ready stamped change := by simp [advance]
    refine ⟨[.read i, .write i], List.prefix_rfl, ?_⟩
    rw [FileM.bind_of_ok prepared]
    rcases committed : (jobs i).patcher.commit (jobs i).directory stamped between with ⟨done, t'⟩
    have writes : (s.advance i between (.ready stamped change)).move jobs (.write i) =
        some (s.advance i t' (.ended (done.map fun _ => change))) := by
      simp only [move, ready]
      rw [show (s.advance i between (.ready stamped change)).tree = between from rfl, committed]
      simp only [advance_advance]
    cases done with
    | error e => simp [play, reads, writes, FileM.bind_of_error committed, Except.map]
    | ok _ => simp [play, reads, writes, FileM.bind_of_ok committed, Except.map]

end Race

/-! ## Rivals -/

/-- Patchers that stamp the same package of the same lockfile in place, each with
    a tag of one line. The lockfile lists the package; the paths to it may differ. -/
structure Rivals (jobs : ι → Job) (t : FileTree) (loc : Location) (package text old : String) : Prop where
  lockfile : ∃ mode content, content.text? = some text ∧
    ∀ i, t.find (jobs i).directory (jobs i).patcher.lockfile = .ok (loc, .file mode content)
  inPlace : ∀ i, (jobs i).patcher.output = .inPlace
  packages : ∀ i, (jobs i).patcher.package = package
  lines : ∀ i, '\n' ∉ (jobs i).tag.toList
  listed : Lockfile.version? text package = .ok (some old)

variable {jobs : ι → Job} {t : FileTree} {loc : Location} {package text old : String} {moves : List (Move ι)} {i : ι}

/-- The text with the tag of the patcher. -/
def stampedBy (jobs : ι → Job) (package text : String) (i : ι) : String :=
  String.ofList (Lockfile.restamp package.toList (jobs i).tag.toList text.toList)

/-- The text of the lockfile after the moves. -/
def textAfter (jobs : ι → Job) (package text : String) (moves : List (Move ι)) : String :=
  (lastWriter moves).elim text (stampedBy jobs package text)

/-- The version that the lockfile then lists. -/
def versionAfter (jobs : ι → Job) (old : String) (moves : List (Move ι)) : String :=
  (lastWriter moves).elim old fun i => (jobs i).tag

theorem stampText_of_version? {p : Patcher} {version tag : String}
    (start : Lockfile.version? text p.package = .ok (some version)) :
    p.stampText text tag = .ok (String.ofList (Lockfile.restamp p.package.toList tag.toList text.toList),
      if version = tag then .unchanged else .updated version) := by
  have stamped := Lockfile.stamp_eq (Lockfile.searchable_of_version? start) text tag
  rw [Lockfile.held_of_version? start] at stamped
  simp [Patcher.stampText, stamped, changeOf]

theorem Rivals.version?_textAfter (rivals : Rivals jobs t loc package text old) (moves : List (Move ι)) :
    Lockfile.version? (textAfter jobs package text moves) package = .ok (some (versionAfter jobs old moves)) := by
  rw [textAfter, versionAfter]
  cases lastWriter moves with
  | none => exact rivals.listed
  | some j => exact Lockfile.version?_restamp rivals.listed (rivals.lines j)

/-- Whatever has been written before, a patcher makes the same text. -/
theorem Rivals.stampText (rivals : Rivals jobs t loc package text old) (moves : List (Move ι)) (i : ι) :
    (jobs i).patcher.stampText (textAfter jobs package text moves) (jobs i).tag =
      .ok (stampedBy jobs package text i, if versionAfter jobs old moves = (jobs i).tag then .unchanged
        else .updated (versionAfter jobs old moves)) := by
  have listed : Lockfile.version? (textAfter jobs package text moves) (jobs i).patcher.package =
      .ok (some (versionAfter jobs old moves)) := by
    rw [rivals.packages i]
    exact rivals.version?_textAfter moves
  rw [stampText_of_version? listed, rivals.packages i, stampedBy, textAfter]
  cases lastWriter moves with
  | none => rfl
  | some j =>
    simp only [Option.elim, stampedBy, String.toList_ofList]
    rw [Lockfile.restamp_restamp _ _ _ (rivals.lines j)]

/-- The patcher read this version: the one that was there when it made its first move. -/
def Saw (jobs : ι → Job) (old : String) (moves : List (Move ι)) (i : ι) (version : String) : Prop :=
  ∃ before after, moves = before ++ .read i :: after ∧ version = versionAfter jobs old before

theorem Saw.concat {version : String} (saw : Saw jobs old moves i version) (move : Move ι) :
    Saw jobs old (moves ++ [move]) i version := by
  obtain ⟨before, after, rfl, same⟩ := saw
  exact ⟨before, after ++ [move], by simp, same⟩

/-- How far a patcher can have come after the moves. -/
inductive Progress.Fits (jobs : ι → Job) (package text old : String) (moves : List (Move ι)) (i : ι) : Progress → Prop where
  | waiting : Fits jobs package text old moves i .waiting
  | ready {version : String} : Saw jobs old moves i version →
      Fits jobs package text old moves i
        (.ready (stampedBy jobs package text i) (if version = (jobs i).tag then .unchanged else .updated version))
  | ended {version : String} : Saw jobs old moves i version →
      Fits jobs package text old moves i (.ended (.ok (if version = (jobs i).tag then .unchanged else .updated version)))

theorem Progress.Fits.concat {progress : Progress} (fits : progress.Fits jobs package text old moves i) (move : Move ι) :
    progress.Fits jobs package text old (moves ++ [move]) i := by
  cases fits with
  | waiting => exact .waiting
  | ready saw => exact .ready (saw.concat move)
  | ended saw => exact .ended (saw.concat move)

/-- What holds after the moves, in whatever order they came. -/
structure Race.Sound (jobs : ι → Job) (t : FileTree) (loc : Location) (package text old : String) (moves : List (Move ι))
    (s : Race ι) : Prop where
  frame : FileTree.SameBut loc t s.tree
  lockfile : ∃ mode content, content.text? = some (textAfter jobs package text moves) ∧
    ∀ i, s.tree.find (jobs i).directory (jobs i).patcher.lockfile = .ok (loc, .file mode content)
  progress : ∀ i, (s.progress i).Fits jobs package text old moves i

theorem Race.Sound.start (rivals : Rivals jobs t loc package text old) :
    (Race.start t).Sound jobs t loc package text old [] :=
  ⟨.refl, rivals.lockfile, fun _ => .waiting⟩

section

variable [DecidableEq ι] {s s' : Race ι}

/-- The others stay as far as they were. -/
theorem Race.Sound.advance {tree : FileTree} {progress : Progress} {move : Move ι}
    (sound : s.Sound jobs t loc package text old moves)
    (fits : progress.Fits jobs package text old (moves ++ [move]) i) (j : ι) :
    ((s.advance i tree progress).progress j).Fits jobs package text old (moves ++ [move]) j := by
  by_cases same : j = i
  · subst same
    simpa [Race.advance] using fits
  · simpa [Race.advance, same] using (sound.progress j).concat move

theorem Race.Sound.read (sound : s.Sound jobs t loc package text old moves) (rivals : Rivals jobs t loc package text old)
    (moved : s.move jobs (.read i) = some s') : s'.Sound jobs t loc package text old (moves ++ [.read i]) := by
  obtain ⟨mode, content, decoded, found_⟩ := sound.lockfile
  rw [Race.move] at moved
  split at moved
  next waits =>
    rw [prepare_of_find (found_ i) decoded, rivals.stampText moves i] at moved
    cases moved
    have same : textAfter jobs package text (moves ++ [.read i]) = textAfter jobs package text moves := by
      simp [textAfter, lastWriter_append, lastWriter]
    refine ⟨sound.frame, ⟨mode, content, by rw [same, decoded], found_⟩, ?_⟩
    exact sound.advance (.ready ⟨moves, [], rfl, rfl⟩)
  · contradiction

theorem Race.Sound.write (sound : s.Sound jobs t loc package text old moves) (rivals : Rivals jobs t loc package text old)
    (moved : s.move jobs (.write i) = some s') : s'.Sound jobs t loc package text old (moves ++ [.write i]) := by
  obtain ⟨mode, content, decoded, found_⟩ := sound.lockfile
  have fits := sound.progress i
  rw [Race.move] at moved
  split at moved
  next stamped change ready =>
    rw [ready] at fits
    cases fits with
    | ready saw =>
      have output := found_ i
      rw [← outputPath_of_inPlace (rivals.inPlace i)] at output
      rw [commit_of_find output] at moved
      cases moved
      have written : textAfter jobs package text (moves ++ [.write i]) = stampedBy jobs package text i := by
        simp [textAfter, lastWriter_append, lastWriter]
      refine ⟨sound.frame.trans (FileTree.sameBut_put _), ⟨mode, _, ?_, fun j => FileTree.find_put (found_ j) mode _⟩, ?_⟩
      · rw [written, Content.text?_ofText]
      · exact sound.advance (.ended (saw.concat _))
  · contradiction

theorem Race.Sound.play (rivals : Rivals jobs t loc package text old)
    (reached : (Race.start t).play jobs moves = some s) : s.Sound jobs t loc package text old moves := by
  induction moves using List.reverseRecOn generalizing s with
  | nil =>
    cases reached
    exact .start rivals
  | append_singleton moves move ih =>
    obtain ⟨between, before, moved⟩ := Race.play_concat_eq_some_iff.mp reached
    cases move with
    | read i => exact (ih before).read rivals moved
    | write i => exact (ih before).write rivals moved

/-- In every state that rivals can reach, the lockfile holds the first text, or
    that text with the tag of the patcher that wrote last, and no other file has
    changed. No patcher fails or misses the package: each one that has read the
    lockfile tells of the version that it saw, which was the first one or the tag
    of the last one that had written by then. -/
theorem last_writer_wins (rivals : Rivals jobs t loc package text old)
    (reached : (Race.start t).play jobs moves = some s) :
    FileTree.SameBut loc t s.tree ∧
    (∃ current, (∀ i, s.tree.readText (jobs i).directory (jobs i).patcher.lockfile = .ok current) ∧
      (lastWriter moves = none → current = text) ∧
      ∀ j, lastWriter moves = some j → Lockfile.stamp text package (jobs j).tag = .ok ⟨current, some old⟩) ∧
    ∀ i answer, (s.progress i).answer? = some answer →
      ∃ version, answer = .ok (if version = (jobs i).tag then .unchanged else .updated version) ∧
        ∃ before after, moves = before ++ .read i :: after ∧
          (lastWriter before = none → version = old) ∧
          ∀ j, lastWriter before = some j → .write j ∈ before ∧ version = (jobs j).tag := by
  have sound := Race.Sound.play rivals reached
  refine ⟨sound.frame, ?_, ?_⟩
  · obtain ⟨mode, content, decoded, found_⟩ := sound.lockfile
    refine ⟨_, fun i => FileTree.readText_of_find (found_ i) decoded, fun none_ => by simp [textAfter, none_], ?_⟩
    intro j last
    have value := Lockfile.held_of_version? rivals.listed
    rw [Lockfile.stamp_eq (Lockfile.searchable_of_version? rivals.listed), value]
    simp [textAfter, last, stampedBy]
  · intro i answer tells
    obtain ⟨version, same, before, after, split, rfl⟩ : ∃ version,
        answer = .ok (if version = (jobs i).tag then .unchanged else .updated version) ∧ Saw jobs old moves i version := by
      have fits := sound.progress i
      cases at_ : s.progress i with
      | waiting => simp [at_, Progress.answer?] at tells
      | ready stamped change =>
        rw [at_] at fits tells
        cases fits with
        | ready saw => exact ⟨_, by simpa [Progress.answer?, eq_comm] using tells, saw⟩
      | ended result =>
        rw [at_] at fits tells
        cases fits with
        | ended saw => exact ⟨_, by simpa [Progress.answer?, eq_comm] using tells, saw⟩
    refine ⟨_, same, before, after, split, ?_, ?_⟩
    · intro none_
      simp [versionAfter, none_]
    · intro j last
      exact ⟨mem_of_lastWriter last, by simp [versionAfter, last]⟩

end

/-- Two stock patchers with different tags. -/
def twoTags (second : Bool) : Job := ⟨stock, [], if second then "3" else "2"⟩

/-- The first patcher writes over the tag of the second one, which it has not seen. -/
theorem last_writer_wins_unseen :
    ∃ s current, (Race.start oneLockfile).play twoTags [.read false, .read true, .write true, .write false] = some s ∧
      s.tree.readText [] defaultLockfile = .ok current ∧
      Lockfile.stamp "name = \"ram-machine\"\nversion = \"1\"\n" "ram-machine" "2" = .ok ⟨current, some "1"⟩ := by
  have rivals : Rivals twoTags oneLockfile ["Cargo.lock"] "ram-machine" "name = \"ram-machine\"\nversion = \"1\"\n"
      "1" := by
    refine ⟨⟨0o644, _, Content.text?_ofText _, ?_⟩, fun _ => rfl, fun _ => rfl, by decide, by decide⟩
    decide +kernel
  have plays : ((Race.start oneLockfile).play twoTags
      [.read false, .read true, .write true, .write false]).isSome = true := by decide +kernel
  obtain ⟨s, reached⟩ := Option.isSome_iff_exists.mp plays
  obtain ⟨-, ⟨current, reads, -, last⟩, -⟩ := last_writer_wins rivals reached
  exact ⟨s, current, reached, reads false, last false rfl⟩

end ReleaseStamp.Patcher
