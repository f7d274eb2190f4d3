import ReleaseStamp.Hook.Installer
import ReleaseStamp.Proofs.Files.Lookups
import ReleaseStamp.Proofs.Hook.Edits
import ReleaseStamp.Proofs.Hook.Script

/-!
The life cycle of a hook script. Whatever is installed and uninstalled in a
directory, the script is in one of four phases (`Phase`), and each call takes it
from one phase to the next (`Phase.next`). One call on the files follows that
step (`Call.run_eq`), so a sequence of calls follows the phases (`life_cycle`),
and the user's text survives all of them.
-/
namespace ReleaseStamp.Hook

/-- What the user or a program asks of the hook. -/
inductive Call where
  | install (force : Bool)
  | uninstall
deriving DecidableEq, Repr

/-- What a call reports. -/
inductive Outcome where
  | installed (outcome : Installed)
  | uninstalled (outcome : Uninstalled)
deriving DecidableEq, Repr

/-- One call on a directory of hooks. -/
def Call.run (cwd : Location) (hooks : Path) : Call → FileM FileError Outcome
  | .install force => do pure (.installed (← installAt cwd hooks force))
  | .uninstall => do pure (.uninstalled (← uninstallAt cwd hooks))

/-- Calls one after the other, up to the first that fails. -/
def runAll (cwd : Location) (hooks : Path) : List Call → FileM FileError (List Outcome)
  | [] => pure []
  | call :: calls => do
    let outcome ← call.run cwd hooks
    let outcomes ← runAll cwd hooks calls
    pure (outcome :: outcomes)

/-! ## Phases -/

/-- What a script can be: absent, the user's text as it was, or the text that
    is kept of it, alone or with a block behind it. -/
inductive Phase where
  | absent
  | untouched (text : List Char)
  | restored (kept : List Char)
  | installed (kept : List Char)
deriving DecidableEq, Repr

namespace Phase

def text : Phase → Option (List Char)
  | absent => none
  | untouched text => some text
  | restored kept => some (kept ++ ['\n'])
  | installed kept => some (kept ++ ['\n', '\n'] ++ block)

/-- The phase of a script that no call has seen. -/
def ofUser : Option (List Char) → Phase
  | none => absent
  | some text => untouched text

/-- What a call reports of a phase, and the phase after it. -/
def next : Phase → Call → Outcome × Phase
  | absent, .install _ => (.installed .created, installed shebang)
  | untouched text, .install _ => (.installed .appended, installed (Text.trimEnd text))
  | restored kept, .install _ => (.installed .appended, installed kept)
  | installed kept, .install force => (.installed (if force then .replaced else .already), installed kept)
  | installed kept, .uninstall =>
    if Bare kept then (.uninstalled .deleted, absent) else (.uninstalled .stripped, restored kept)
  | phase, .uninstall => (.uninstalled .notInstalled, phase)

/-- The phase after some calls. -/
def after (phase : Phase) (calls : List Call) : Phase := calls.foldl (fun phase call => (phase.next call).2) phase

/-- What the calls report. -/
def reports : Phase → List Call → List Outcome
  | _, [] => []
  | phase, call :: calls => (phase.next call).1 :: (phase.next call).2.reports calls

/-- The texts of the phase are fit to be kept. -/
def Sound : Phase → Prop
  | absent => True
  | untouched text => marked text = false ∧ Text.NoCrlf text
  | restored kept | installed kept => Kept kept

variable {phase : Phase} {current : Option (List Char)}

theorem Sound.ofUser (clean : ∀ text ∈ current, marked text = false ∧ Text.NoCrlf text) : (ofUser current).Sound := by
  cases current with
  | none => trivial
  | some text => exact clean text rfl

theorem Sound.next (sound : phase.Sound) (call : Call) : (phase.next call).2.Sound := by
  cases phase with
  | absent =>
    cases call with
    | install force => exact Kept.shebang
    | uninstall => trivial
  | untouched text =>
    cases call with
    | install force => exact Kept.ofUser sound.1 sound.2
    | uninstall => exact sound
  | restored kept => cases call <;> exact sound
  | installed kept =>
    cases call with
    | install force => exact sound
    | uninstall =>
      rw [Phase.next]
      split
      · trivial
      · exact sound

theorem Sound.after (sound : phase.Sound) (calls : List Call) : (phase.after calls).Sound := by
  induction calls generalizing phase with
  | nil => exact sound
  | cons call calls ih => exact ih (sound.next call)

theorem after_concat (phase : Phase) (calls : List Call) (call : Call) :
    phase.after (calls ++ [call]) = ((phase.after calls).next call).2 := by
  rw [after, List.foldl_append]
  rfl

/-! ## The edits of a phase -/

theorem Sound.marked_iff (sound : phase.Sound) {text : List Char} (held : phase.text = some text) :
    marked text = true ↔ ∃ kept, phase = installed kept := by
  cases phase with
  | absent => contradiction
  | untouched user =>
    cases held
    simp [sound.1]
  | restored kept =>
    cases held
    have unmarked := (marked_concat kept).trans (Kept.unmarked sound)
    simp [unmarked]
  | installed kept =>
    obtain rfl := Option.some.inj held
    have mark := marked_withBlock kept
    rw [withBlock, Kept.trimmed sound] at mark
    exact ⟨fun _ => ⟨kept, rfl⟩, fun _ => mark⟩

end Phase

/-- What a script holds after an edit. -/
def Edit.after (current : Option (List Char)) : Edit → Option (List Char)
  | .keep => current
  | .write text => some text
  | .delete => none

theorem Kept.text_eq {kept : List Char} (sound : Kept kept) : (Phase.installed kept).text = some (withBlock kept) := by
  rw [Phase.text, withBlock, sound.trimmed]

theorem Phase.Sound.countP_isBegin {phase : Phase} (sound : phase.Sound) {text : List Char}
    (held : phase.text = some text) : (Text.lines text).countP isBegin ≤ 1 := by
  cases mark : marked text with
  | false => exact (countP_isBegin_of_unmarked mark).trans_le (Nat.zero_le 1)
  | true =>
    obtain ⟨kept, rfl⟩ := (sound.marked_iff held).mp mark
    rw [Kept.text_eq sound] at held
    cases held
    exact (Kept.plain sound).countP_withBlock.le

/-- Installing takes the text of one phase to that of the next. -/
theorem Phase.Sound.install {phase : Phase} (sound : phase.Sound) (force : Bool) :
    (phase.next (.install force)).1 = .installed (Hook.install force phase.text).1 ∧
      (Hook.install force phase.text).2.after phase.text = (phase.next (.install force)).2.text := by
  cases phase with
  | absent => exact ⟨rfl, Kept.shebang.text_eq.symm⟩
  | untouched user =>
    have edit : Hook.install force (Phase.untouched user).text = (.appended, .write (withBlock user)) := by
      simp [Hook.install, Phase.text, sound.1]
    rw [edit]
    exact ⟨rfl, rfl⟩
  | restored kept =>
    have edit : Hook.install force (Phase.restored kept).text = (.appended, .write (withBlock kept)) := by
      simp [Hook.install, Phase.text, marked_concat, Kept.unmarked sound, withBlock_concat]
    rw [edit]
    exact ⟨rfl, (Kept.text_eq sound).symm⟩
  | installed kept =>
    rw [Phase.next, Kept.text_eq sound, (Kept.plain sound).install_withBlock, Kept.lfEnds_eq sound]
    cases force <;> simp [Edit.after]

theorem Phase.Sound.uninstall {phase : Phase} (sound : phase.Sound) :
    (phase.next .uninstall).1 = .uninstalled (Hook.uninstall phase.text).1 ∧
      (Hook.uninstall phase.text).2.after phase.text = (phase.next .uninstall).2.text := by
  cases phase with
  | absent => exact ⟨rfl, rfl⟩
  | untouched user => simp [Hook.uninstall, Phase.text, sound.1, Phase.next, Edit.after]
  | restored kept =>
    simp [Hook.uninstall, Phase.text, marked_concat, Kept.unmarked sound, Phase.next, Edit.after]
  | installed kept =>
    rw [Kept.text_eq sound, (Kept.plain sound).uninstall_withBlock, Kept.lfEnds_eq sound, Phase.next]
    by_cases bare : Bare kept
    · have idle := (bare_iff kept).mp bare
      simp [idle, bare, Edit.after, Phase.text]
    · have worth := bare
      rw [bare_iff, Bool.not_eq_false] at worth
      simp [worth, bare, Edit.after, Phase.text]

/-! ## The edits of a call on the files -/

/-- The directory of hooks is there, and a location is that of its script. -/
structure Seat (cwd : Location) (hooks : Path) (loc : Location) (t : FileTree) : Prop where
  directory : t.isDirectory cwd hooks = true
  entry : t.entry? cwd (scriptPath hooks) = .ok (some loc)

/-- What a script holds: nothing is there, or a file with a text. -/
inductive Holds (t : FileTree) (loc : Location) : Option (List Char) → Prop where
  | absent : t.get? loc = none → Holds t loc none
  | text {mode : Nat} {content : Content} {text : String} :
      t.get? loc = some (.file mode content) → content.text? = some text → Holds t loc (some text.toList)

variable {t t' : FileTree} {cwd loc : Location} {hooks : Path} {current : Option (List Char)}

theorem scriptPath_open (hooks : Path) : (scriptPath hooks).endsInSlash = false := by
  rw [scriptPath, Path.join]
  split_ifs <;> simp [Path.endsInSlash]

theorem seat_of_find {dir : Location} (directory : t.find cwd hooks = .ok (dir, .directory))
    (fit : FileTree.unfit? (scriptPath hooks) = none) : Seat cwd hooks (dir ++ ["pre-commit"]) t where
  directory := FileTree.isDirectory_iff.mpr ⟨dir, directory⟩
  entry := FileTree.entry?_join directory ⟨by decide, by decide, by decide⟩ fit

theorem Holds.shows (held : Holds t loc current) : ∃ shown, t.Shows loc shown := by
  cases held with
  | absent nothing => exact ⟨_, .vacant nothing⟩
  | text here _ => exact ⟨_, .file here⟩

theorem Seat.reread (seat : Seat cwd hooks loc t) (held : Holds t loc current) (off : FileTree.SameBut loc t t') :
    Seat cwd hooks loc t' := by
  obtain ⟨shown, leaf⟩ := held.shows
  exact ⟨FileTree.isDirectory_reread seat.directory off leaf, FileTree.entry?_reread seat.entry off leaf⟩

theorem Holds.loc_ne_nil (held : Holds t loc current) : loc ≠ [] := by
  obtain ⟨shown, leaf⟩ := held.shows
  exact FileTree.ne_nil_of_shows leaf

theorem Seat.find (seat : Seat cwd hooks loc t) {mode : Nat} {content : Content}
    (here : t.get? loc = some (.file mode content)) :
    t.find cwd (scriptPath hooks) = .ok (loc, .file mode content) :=
  FileTree.find_eq_ok_iff.mpr (FileTree.lookup_of_entry? seat.entry (scriptPath_open hooks) (.file here) false)

theorem readScript_eq (seat : Seat cwd hooks loc t) (held : Holds t loc current) :
    readScript cwd (scriptPath hooks) t = (.ok current, t) := by
  cases held with
  | absent nothing =>
    have looked := FileTree.lookup_of_entry? seat.entry (scriptPath_open hooks) (.vacant nothing) false
    simp [readScript, FileTree.has, FileTree.find, looked, Except.toBool]
  | text here decoded =>
    have found := seat.find here
    rw [Content.text?] at decoded
    simp [readScript, FileTree.has, found, Except.toBool, FileTree.readText, FileTree.readBytes, decoded, Except.map]

theorem Holds.put (below : loc ≠ []) (mode : Nat) (text : List Char) :
    Holds (t.put loc (.file mode (.ofText (String.ofList text)))) loc (some text) := by
  have here := FileTree.get?_put_self t (.file mode (.ofText (String.ofList text))) below
  have held := Holds.text here (Content.text?_ofText (String.ofList text))
  rwa [String.toList_ofList] at held

/-- An edit changes nothing but the script. -/
theorem apply_eq (seat : Seat cwd hooks loc t) (held : Holds t loc current) {edit : Edit}
    (there : edit = .delete → current ≠ none) :
    ∃ t', apply cwd (scriptPath hooks) edit t = (.ok (), t') ∧ FileTree.SameBut loc t t' ∧
      Holds t' loc (edit.after current) := by
  have below := Holds.loc_ne_nil held
  cases edit with
  | keep => exact ⟨t, rfl, .refl, held⟩
  | write text =>
    obtain ⟨shown, leaf⟩ := held.shows
    obtain ⟨mode, written⟩ :=
      FileTree.write_of_entry? seat.entry (scriptPath_open hooks) leaf (.ofText (String.ofList text))
    exact ⟨_, FileM.writeText_of_ok written, FileTree.sameBut_put _, Holds.put below mode text⟩
  | delete =>
    cases held with
    | absent _ => exact absurd rfl (there rfl)
    | text here _ =>
      have removed := FileTree.removeFile_of_entry? seat.entry here
      exact ⟨_, FileM.removeFile_of_ok removed, FileTree.sameBut_erase, .absent (FileTree.get?_erase_self t below)⟩

theorem setMode_eq (seat : Seat cwd hooks loc t) {text : List Char} (held : Holds t loc (some text)) (mode : Nat) :
    ∃ t', FileM.setMode cwd (scriptPath hooks) mode t = (.ok (), t') ∧ FileTree.SameBut loc t t' ∧
      Holds t' loc (some text) := by
  have below := Holds.loc_ne_nil held
  cases held with
  | text here decoded =>
    have changed := FileTree.setMode_of_find (seat.find here) mode
    exact ⟨_, FileM.setMode_of_ok changed, FileTree.sameBut_put _, .text (FileTree.get?_put_self t _ below) decoded⟩

theorem installAt_eq (seat : Seat cwd hooks loc t) (held : Holds t loc current) (force : Bool) :
    ∃ t', installAt cwd hooks force t = (.ok (install force current).1, t') ∧ FileTree.SameBut loc t t' ∧
      Holds t' loc ((install force current).2.after current) := by
  obtain ⟨written, applied, off, holds⟩ : ∃ t',
      apply cwd (scriptPath hooks) (install force current).2 t = (.ok (), t') ∧ FileTree.SameBut loc t t' ∧
        Holds t' loc ((install force current).2.after current) := by
    apply apply_eq seat held
    rcases install_cases force current with keep | ⟨outcome, text, -, write⟩
    · simp [keep]
    · simp [write]
  rw [installAt, FileM.bind_of_ok (FileTree.makeDirectories_of_isDirectory seat.directory),
    FileM.bind_of_ok (readScript_eq seat held)]
  dsimp only
  rw [FileM.bind_of_ok applied]
  -- The mode is set only where the script was written.
  rcases install_cases force current with keep | ⟨outcome, text, -, write⟩
  · refine ⟨written, ?_, off, holds⟩
    simp [keep]
  · rw [write, Edit.after] at holds
    obtain ⟨t', changed, still, same⟩ := setMode_eq (seat.reread held off) holds scriptMode
    refine ⟨t', ?_, off.trans still, ?_⟩
    · simp only [write, ne_eq, reduceCtorEq, not_false_eq_true, if_true]
      rw [FileM.bind_of_ok changed]
      rfl
    · rw [write]
      exact same

theorem uninstallAt_eq (seat : Seat cwd hooks loc t) (held : Holds t loc current) :
    ∃ t', uninstallAt cwd hooks t = (.ok (uninstall current).1, t') ∧ FileTree.SameBut loc t t' ∧
      Holds t' loc ((uninstall current).2.after current) := by
  obtain ⟨t', applied, off, holds⟩ : ∃ t', apply cwd (scriptPath hooks) (uninstall current).2 t = (.ok (), t') ∧
      FileTree.SameBut loc t t' ∧ Holds t' loc ((uninstall current).2.after current) := by
    apply apply_eq seat held
    rintro deletes rfl
    simp [uninstall] at deletes
  refine ⟨t', ?_, off, holds⟩
  rw [uninstallAt, FileM.bind_of_ok (readScript_eq seat held)]
  dsimp only
  rw [FileM.bind_of_ok applied]
  rfl

/-! ## Calls -/

variable {phase : Phase}

/-- One call answers and leaves the script as its phase says. -/
theorem Call.run_eq (seat : Seat cwd hooks loc t) (sound : phase.Sound) (held : Holds t loc phase.text) (call : Call) :
    ∃ t', call.run cwd hooks t = (.ok (phase.next call).1, t') ∧ FileTree.SameBut loc t t' ∧
      Holds t' loc (phase.next call).2.text := by
  cases call with
  | install force =>
    obtain ⟨t', done, off, holds⟩ := installAt_eq seat held force
    obtain ⟨outcome, text⟩ := sound.install force
    rw [text] at holds
    refine ⟨t', ?_, off, holds⟩
    rw [Call.run, FileM.bind_of_ok done, outcome]
    rfl
  | uninstall =>
    obtain ⟨t', done, off, holds⟩ := uninstallAt_eq seat held
    obtain ⟨outcome, text⟩ := sound.uninstall
    rw [text] at holds
    refine ⟨t', ?_, off, holds⟩
    rw [Call.run, FileM.bind_of_ok done, outcome]
    rfl

/-- Calls follow the phases, one step each. -/
theorem runAll_eq (seat : Seat cwd hooks loc t) (sound : phase.Sound) (held : Holds t loc phase.text)
    (calls : List Call) :
    ∃ t', runAll cwd hooks calls t = (.ok (phase.reports calls), t') ∧ FileTree.SameBut loc t t' ∧
      Holds t' loc (phase.after calls).text := by
  induction calls generalizing t phase with
  | nil => exact ⟨t, rfl, .refl, held⟩
  | cons call calls ih =>
    obtain ⟨between, first, off, holds⟩ := call.run_eq seat sound held
    obtain ⟨t', rest, still, last⟩ := ih (seat.reread held off) (sound.next call) holds
    refine ⟨t', ?_, off.trans still, last⟩
    rw [runAll, FileM.bind_of_ok first, FileM.bind_of_ok rest]
    rfl

/-! ## What the phases keep -/

/-- After some calls the script has been absent. -/
def HasVanished (start : Option (List Char)) (calls : List Call) : Prop :=
  ∃ earlier, earlier <+: calls ∧ (Phase.ofUser start).after earlier = .absent

/-- The text that is kept: the user's without the blanks at its end, or a
    shebang once the script has been absent. -/
def IsKept (start : Option (List Char)) (vanished : Prop) (kept : List Char) : Prop :=
  vanished ∧ kept = shebang ∨ ¬ vanished ∧ ∃ text ∈ start, kept = Text.trimEnd text

/-- A phase that the calls can have come to. -/
def Phase.Fits (start : Option (List Char)) (vanished : Prop) : Phase → Prop
  | absent => vanished
  | untouched text => ¬ vanished ∧ text ∈ start
  | restored kept | installed kept => IsKept start vanished kept

theorem hasVanished_concat {start : Option (List Char)} {calls : List Call} {call : Call} :
    HasVanished start (calls ++ [call]) ↔
      HasVanished start calls ∨ (Phase.ofUser start).after (calls ++ [call]) = .absent := by
  constructor
  · rintro ⟨earlier, within, gone⟩
    rcases List.prefix_concat_iff.mp within with rfl | before
    · exact .inr gone
    · exact .inl ⟨earlier, before, gone⟩
  · rintro (⟨earlier, before, gone⟩ | gone)
    · exact ⟨earlier, before.trans (List.prefix_append ..), gone⟩
    · exact ⟨_, List.prefix_rfl, gone⟩

theorem Phase.Fits.next {start : Option (List Char)} {vanished : Prop} (fits : phase.Fits start vanished) (call : Call) :
    (phase.next call).2.Fits start (vanished ∨ (phase.next call).2 = .absent) := by
  cases phase with
  | absent =>
    cases call with
    | install force => exact .inl ⟨.inl fits, rfl⟩
    | uninstall => exact .inl fits
  | untouched text =>
    cases call with
    | install force => exact .inr ⟨by simpa [Phase.next] using fits.1, text, fits.2, rfl⟩
    | uninstall => exact ⟨by simpa [Phase.next] using fits.1, fits.2⟩
  | restored kept => cases call <;> simpa [Phase.next, Phase.Fits] using fits
  | installed kept =>
    cases call with
    | install force => simpa [Phase.next, Phase.Fits] using fits
    | uninstall =>
      rw [Phase.next]
      split_ifs
      · exact .inr rfl
      · simpa [Phase.Fits] using fits

theorem fits_after (start : Option (List Char)) (calls : List Call) :
    ((Phase.ofUser start).after calls).Fits start (HasVanished start calls) := by
  induction calls using List.reverseRecOn with
  | nil =>
    cases start with
    | none => exact ⟨[], List.prefix_rfl, rfl⟩
    | some text =>
      refine ⟨?_, rfl⟩
      rintro ⟨earlier, within, gone⟩
      rw [List.prefix_nil.mp within] at gone
      contradiction
  | append_singleton calls call ih =>
    -- Only the last call can make the script vanish that was there before it.
    rw [hasVanished_concat, Phase.after_concat]
    exact ih.next call

/-! ## The life cycle -/

/-- Every sequence of calls on a directory of hooks succeeds and reports what
    the phases tell, if the path of the script is not too long to be looked up.
    The script ends in a phase that keeps the user's text, with at most one
    block, and nothing else has changed. -/
theorem life_cycle {dir : Location} {start : Option (List Char)} (directory : t.find cwd hooks = .ok (dir, .directory))
    (fit : FileTree.unfit? (scriptPath hooks) = none) (held : Holds t (dir ++ ["pre-commit"]) start)
    (clean : ∀ text ∈ start, marked text = false ∧ Text.NoCrlf text) (calls : List Call) :
    ∃ t' phase, phase = (Phase.ofUser start).after calls ∧
      runAll cwd hooks calls t = (.ok ((Phase.ofUser start).reports calls), t') ∧
      Holds t' (dir ++ ["pre-commit"]) phase.text ∧ FileTree.SameBut (dir ++ ["pre-commit"]) t t' ∧
      phase.Fits start (HasVanished start calls) ∧
      ∀ text ∈ phase.text, (Text.lines text).countP isBegin ≤ 1 ∧
        (marked text = true ↔ ∃ kept, phase = .installed kept) := by
  have seat := seat_of_find directory fit
  have sound := Phase.Sound.ofUser clean
  have same : (Phase.ofUser start).text = start := by cases start <;> rfl
  rw [← same] at held
  obtain ⟨t', done, off, holds⟩ := runAll_eq seat sound held calls
  refine ⟨t', _, rfl, done, holds, off, fits_after start calls, ?_⟩
  intro text ends
  have still := sound.after calls
  exact ⟨still.countP_isBegin ends, still.marked_iff ends⟩

/-- A directory of hooks with the script of a user. -/
def usersHook : FileTree :=
  (FileTree.empty.put ["hooks"] .directory).put ["hooks", "pre-commit"] (.file 0o755 (.ofText "make check  \n\n"))

theorem life_cycle_usersHook :
    ∃ t' phase, phase = (Phase.untouched "make check  \n\n".toList).after
        [.uninstall, .install false, .install true, .uninstall, .install false] ∧
      runAll [] ⟨"hooks"⟩ [.uninstall, .install false, .install true, .uninstall, .install false] usersHook =
        (.ok [.uninstalled .notInstalled, .installed .appended, .installed .replaced, .uninstalled .stripped,
          .installed .appended], t') ∧
      phase = .installed "make check".toList := by
  have directory : usersHook.find [] ⟨"hooks"⟩ = .ok (["hooks"], .directory) := by decide
  have held : Holds usersHook ["hooks", "pre-commit"] (some "make check  \n\n".toList) :=
    .text rfl (Content.text?_ofText _)
  obtain ⟨t', phase, same, done, -, -, -, -⟩ := life_cycle directory (by decide) held (by decide)
    [.uninstall, .install false, .install true, .uninstall, .install false]
  refine ⟨t', phase, same, ?_, ?_⟩
  · rw [done]
    rfl
  · rw [same]
    rfl

end ReleaseStamp.Hook
