import ReleaseStamp.CommandLine.Run
import ReleaseStamp.Proofs.Files.Closed
import ReleaseStamp.Proofs.Git.Library

/-!
A run keeps the tree closed (`CommandLine.run_closed`). Each activity does that
however it ends (`FileM.KeepsClosed`), because its parts do, and the parts are
single changes of the tree. The one change that is not the program's own is that
of a lawful git library, which writes an index where its path leads.
-/
namespace ReleaseStamp

open FileTree

/-! ## Activities -/

namespace FileM

variable {ε ε' α β : Type} {x : FileM ε α} {f : FileTree → Except ε FileTree}

/-- An activity leaves a closed tree closed, also where it fails. -/
def KeepsClosed (x : FileM ε α) : Prop := ∀ t : FileTree, t.Closed → (x t).2.Closed

theorem keepsClosed_pure (a : α) : KeepsClosed (pure a : FileM ε α) := fun _ closed => closed

theorem keepsClosed_ask (f : FileTree → Except ε α) : KeepsClosed (ask f) := fun _ closed => closed

theorem KeepsClosed.bind {f : α → FileM ε β} (first : KeepsClosed x) (next : ∀ a, KeepsClosed (f a)) :
    KeepsClosed (x >>= f) := by
  intro t closed
  have between := first t closed
  rw [bind_apply]
  rcases run : x t with ⟨e | a, t'⟩
  · rwa [run] at between
  · rw [run] at between
    exact next a t' between

theorem KeepsClosed.mapError (keeps : KeepsClosed x) (f : ε → ε') : KeepsClosed (x.mapError f) := by
  intro t closed
  have after := keeps t closed
  rw [FileM.mapError]
  rcases run : x t with ⟨e | a, t'⟩ <;> rwa [run] at after

theorem keepsClosed_change (keeps : ∀ t t', t.Closed → f t = .ok t' → t'.Closed) : KeepsClosed (change f) := by
  intro t closed
  rw [change]
  split
  next t' done => exact keeps t t' closed done
  next => exact closed

/-! ## Changes of files -/

variable {cwd : Location} {p : Path}

theorem keepsClosed_writeText (text : String) : KeepsClosed (writeText cwd p text) :=
  keepsClosed_change fun _ _ closed => closed.write

theorem keepsClosed_setMode (mode : Nat) : KeepsClosed (setMode cwd p mode) :=
  keepsClosed_change fun _ _ closed => closed.setMode

theorem keepsClosed_removeFile : KeepsClosed (removeFile cwd p) :=
  keepsClosed_change fun _ _ closed => closed.removeFile

theorem keepsClosed_ensureDirectory : KeepsClosed (ensureDirectory cwd p) := by
  intro t closed
  rw [ensureDirectory]
  split
  next t' made => exact closed.makeDirectory made
  next => exact closed

theorem keepsClosed_ensureDirectories (paths : List Path) : KeepsClosed (ensureDirectories cwd paths) := by
  induction paths with
  | nil => exact keepsClosed_pure ()
  | cons p parents ih =>
    intro t closed
    rw [ensureDirectories]
    dsimp only
    split
    · exact ih.bind (fun _ => keepsClosed_ensureDirectory) t closed
    · exact keepsClosed_ensureDirectory t closed

end FileM

open FileM

/-! ## Parts of the commands -/

theorem Patcher.run_keepsClosed (p : Patcher) (cwd : Location) (tag : String) : KeepsClosed (p.run cwd tag) := by
  refine ((keepsClosed_ask _).mapError _).bind fun text => (keepsClosed_ask _).bind fun stamped => ?_
  exact ((keepsClosed_writeText _).mapError _).bind fun _ => keepsClosed_pure _

theorem Hook.apply_keepsClosed (cwd : Location) (script : Path) (edit : Edit) : KeepsClosed (apply cwd script edit) := by
  cases edit with
  | keep => exact keepsClosed_pure ()
  | write text => exact keepsClosed_writeText _
  | delete => exact keepsClosed_removeFile

theorem Hook.installAt_keepsClosed (cwd : Location) (hooks : Path) (force : Bool) :
    KeepsClosed (installAt cwd hooks force) := by
  refine (keepsClosed_ensureDirectories _).bind fun _ => (keepsClosed_ask _).bind fun current => ?_
  rcases install force current with ⟨outcome, edit⟩
  refine (apply_keepsClosed _ _ edit).bind fun _ => ?_
  cases edit with
  | keep => exact keepsClosed_pure _
  | write text => exact (keepsClosed_setMode _).bind fun _ => keepsClosed_pure _
  | delete => exact (keepsClosed_setMode _).bind fun _ => keepsClosed_pure _

theorem Hook.uninstallAt_keepsClosed (cwd : Location) (hooks : Path) : KeepsClosed (uninstallAt cwd hooks) :=
  (keepsClosed_ask _).bind fun _ => (apply_keepsClosed _ _ _).bind fun _ => keepsClosed_pure _

section

variable [Git.Library] [Git.LawfulLibrary]

theorem Git.writeIndex_closed {t t' : FileTree} {cwd : Location} {file : Path} {index : Git.Index} (closed : t.Closed)
    (written : Git.Library.writeIndex t cwd file index = .ok t') : t'.Closed := by
  obtain ⟨place, mode, leads, rfl⟩ := LawfulLibrary.write written
  exact closed.put_leadsTo leads _

theorem Git.stage_keepsClosed (cwd : Location) (given : Option Path) (path : Path) :
    KeepsClosed (Git.stage cwd given path) := by
  refine keepsClosed_change fun t t' closed staged => ?_
  obtain ⟨loc, -, staged⟩ := bind_eq_ok_iff.mp staged
  obtain ⟨planned, -, staged⟩ := bind_eq_ok_iff.mp staged
  exact writeIndex_closed closed (mapError_eq_ok_iff.mp staged)

/-! ## Commands -/

namespace Command

theorem patch_keepsClosed (env : Environment) (o : Overrides) (tag : String) : KeepsClosed (patch env o tag) := by
  refine (keepsClosed_ask _).bind fun s => ((s.patcher.run_keepsClosed _ _).mapError _).bind fun change => ?_
  split
  · exact ((Git.stage_keepsClosed _ _ _).mapError _).bind fun _ => keepsClosed_pure _
  · exact keepsClosed_pure _

omit [Git.Library] [Git.LawfulLibrary] in
theorem showVersion_keepsClosed (env : Environment) (o : Overrides) : KeepsClosed (showVersion env o) :=
  (keepsClosed_ask _).bind fun _ => ((keepsClosed_ask _).mapError _).bind fun _ => keepsClosed_ask _

omit [Git.LawfulLibrary] in
theorem install_keepsClosed (env : Environment) (force : Bool) : KeepsClosed (install env force) :=
  (keepsClosed_ask _).bind fun _ => ((Hook.installAt_keepsClosed _ _ _).mapError _).bind fun _ => keepsClosed_pure _

omit [Git.LawfulLibrary] in
theorem uninstall_keepsClosed (env : Environment) : KeepsClosed (uninstall env) :=
  (keepsClosed_ask _).bind fun _ => ((Hook.uninstallAt_keepsClosed _ _).mapError _).bind fun _ => keepsClosed_pure _

end Command

/-- Whatever the program is asked to do, what lies in its tree afterwards lies in
    directories if it did so before. -/
theorem CommandLine.run_closed (s : Surroundings) (arguments : List String) {t : FileTree} (closed : t.Closed) :
    (run s arguments t).2.Closed := by
  have keeps : ∀ request, KeepsClosed (perform s.toEnvironment request)
    | .patch o tag => Command.patch_keepsClosed _ o tag
    | .showVersion o => Command.showVersion_keepsClosed _ o
    | .install force => Command.install_keepsClosed _ force
    | .uninstall => Command.uninstall_keepsClosed _
  rw [run]
  split
  next => exact closed
  next request asked =>
    have after := keeps request t closed
    split
    next t' done => rwa [done] at after
    next t' failed => rwa [failed] at after

end

end ReleaseStamp
