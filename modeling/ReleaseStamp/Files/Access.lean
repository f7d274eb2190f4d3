import ReleaseStamp.Files.Lookup

/-!
Reading and changing a file tree. An activity (`FileM`) answers or fails, and
leaves a tree either way, so that what a failure has already changed can be
told. Reading changes nothing; each change names the one location it touches.
-/
namespace ReleaseStamp

/-- An activity on a file tree that may fail. -/
def FileM (ε α : Type) : Type := FileTree → Except ε α × FileTree

namespace FileM

variable {ε ε' α β : Type}

instance : Monad (FileM ε) where
  pure a := fun t => (.ok a, t)
  bind x f := fun t =>
    match x t with
    | (.ok a, t') => f a t'
    | (.error e, t') => (.error e, t')

/-- An answer computed from the tree, which stays as it is. -/
def ask (f : FileTree → Except ε α) : FileM ε α := fun t => (f t, t)

/-- One change of the tree; if it fails the tree stays as it is. -/
def change (f : FileTree → Except ε FileTree) : FileM ε Unit := fun t =>
  match f t with
  | .ok t' => (.ok (), t')
  | .error e => (.error e, t)

/-- The same activity with its failures told in other terms. -/
def mapError (f : ε → ε') (x : FileM ε α) : FileM ε' α := fun t =>
  match x t with
  | (.ok a, t') => (.ok a, t')
  | (.error e, t') => (.error (f e), t')

@[simp] theorem pure_apply (a : α) (t : FileTree) : (pure a : FileM ε α) t = (.ok a, t) := rfl

theorem bind_apply (x : FileM ε α) (f : α → FileM ε β) (t : FileTree) :
    (x >>= f) t = match x t with
      | (.ok a, t') => f a t'
      | (.error e, t') => (.error e, t') := rfl

theorem bind_of_ok {x : FileM ε α} {t t' : FileTree} {a : α} (done : x t = (.ok a, t')) (f : α → FileM ε β) :
    (x >>= f) t = f a t' := by
  rw [bind_apply, done]

theorem bind_of_error {x : FileM ε α} {t t' : FileTree} {e : ε} (failed : x t = (.error e, t')) (f : α → FileM ε β) :
    (x >>= f) t = (.error e, t') := by
  rw [bind_apply, failed]

@[simp] theorem ask_apply (f : FileTree → Except ε α) (t : FileTree) : ask f t = (f t, t) := rfl

theorem change_of_ok {f : FileTree → Except ε FileTree} {t t' : FileTree} (done : f t = .ok t') :
    change f t = (.ok (), t') := by
  rw [change, done]

theorem change_of_error {f : FileTree → Except ε FileTree} {t : FileTree} {e : ε} (failed : f t = .error e) :
    change f t = (.error e, t) := by
  rw [change, failed]

theorem change_eq_ok {f : FileTree → Except ε FileTree} {t : FileTree} (done : (change f t).1 = .ok ()) :
    ∃ t', f t = .ok t' ∧ (change f t).2 = t' := by
  rw [change] at done ⊢
  cases run : f t with
  | ok t' => exact ⟨t', rfl, rfl⟩
  | error e => simp [run] at done

theorem change_eq_error {f : FileTree → Except ε FileTree} {t : FileTree} {e : ε}
    (failed : (change f t).1 = .error e) : (change f t).2 = t := by
  rw [change] at failed ⊢
  cases run : f t with
  | ok t' => simp [run] at failed
  | error e => rfl

theorem mapError_of_ok {x : FileM ε α} {t t' : FileTree} {a : α} (done : x t = (.ok a, t')) (f : ε → ε') :
    x.mapError f t = (.ok a, t') := by
  rw [mapError, done]

theorem mapError_of_error {x : FileM ε α} {t t' : FileTree} {e : ε} (failed : x t = (.error e, t')) (f : ε → ε') :
    x.mapError f t = (.error (f e), t') := by
  rw [mapError, failed]

end FileM

namespace FileTree

def readBytes (t : FileTree) (cwd : Location) (p : Path) : Except FileError ByteArray :=
  match t.find cwd p with
  | .ok (_, .file _ content) => .ok content.raw
  | .ok _ => .error .isADirectory
  | .error e => .error e

def readText (t : FileTree) (cwd : Location) (p : Path) : Except FileError String :=
  match t.readBytes cwd p with
  | .ok data =>
    match String.fromUTF8? data with
    | some text => .ok text
    | none => .error .notText
  | .error e => .error e

def newFileMode : Nat := 0o644

/-- The location that a write to the path goes to, and the mode of the file there. -/
def writable (t : FileTree) (cwd : Location) (p : Path) : Except FileError (Location × Nat) :=
  match t.lookup true cwd p with
  | .ok (.found loc (.file mode _)) => .ok (loc, mode)
  | .ok (.found _ _) => .error .isADirectory
  | .ok (.vacant loc) => .ok (loc, newFileMode)
  | .error e => .error e

/-- The tree after the path is written to. A file keeps its mode, a missing one
    is created where the path leads. -/
def write (t : FileTree) (cwd : Location) (p : Path) (content : Content) : Except FileError FileTree :=
  (t.writable cwd p).map fun target => t.put target.1 (.file target.2 content)

/-- The tree with another mode on the file that the path leads to. -/
def setMode (t : FileTree) (cwd : Location) (p : Path) (mode : Nat) : Except FileError FileTree :=
  match t.find cwd p with
  | .ok (loc, .file _ content) => .ok (t.put loc (.file mode content))
  | .ok _ => .ok t
  | .error e => .error e

/-- The tree without the entry that the path names; a directory stays. -/
def removeFile (t : FileTree) (cwd : Location) (p : Path) : Except FileError FileTree := do
  match ← t.entry? cwd p with
  | none => .error .isADirectory
  | some loc =>
    match t.get? loc with
    | none => .error .notFound
    | some .directory => .error .isADirectory
    | some _ => .ok (t.erase loc)

def makeDirectory (t : FileTree) (cwd : Location) (p : Path) : Except FileError FileTree := do
  match ← t.entry? cwd p with
  | none => .error .alreadyExists
  | some loc =>
    match t.get? loc with
    | none => .ok (t.put loc .directory)
    | some _ => .error .alreadyExists

end FileTree

namespace FileM

def readText (cwd : Location) (p : Path) : FileM FileError String := ask (·.readText cwd p)

def writeText (cwd : Location) (p : Path) (text : String) : FileM FileError Unit :=
  change (·.write cwd p (.ofText text))

def setMode (cwd : Location) (p : Path) (mode : Nat) : FileM FileError Unit := change (·.setMode cwd p mode)

def removeFile (cwd : Location) (p : Path) : FileM FileError Unit := change (·.removeFile cwd p)

theorem readText_of_ok {t : FileTree} {cwd : Location} {p : Path} {text : String}
    (read : t.readText cwd p = .ok text) : readText cwd p t = (.ok text, t) := by
  rw [readText, ask_apply, read]

theorem readText_of_error {t : FileTree} {cwd : Location} {p : Path} {e : FileError}
    (failed : t.readText cwd p = .error e) : readText cwd p t = (.error e, t) := by
  rw [readText, ask_apply, failed]

theorem writeText_of_ok {t t' : FileTree} {cwd : Location} {p : Path} {text : String}
    (written : t.write cwd p (.ofText text) = .ok t') : writeText cwd p text t = (.ok (), t') :=
  change_of_ok written

theorem writeText_of_error {t : FileTree} {cwd : Location} {p : Path} {text : String} {e : FileError}
    (failed : t.write cwd p (.ofText text) = .error e) : writeText cwd p text t = (.error e, t) :=
  change_of_error failed

theorem setMode_of_ok {t t' : FileTree} {cwd : Location} {p : Path} {mode : Nat}
    (changed : t.setMode cwd p mode = .ok t') : setMode cwd p mode t = (.ok (), t') :=
  change_of_ok changed

theorem removeFile_of_ok {t t' : FileTree} {cwd : Location} {p : Path} (removed : t.removeFile cwd p = .ok t') :
    removeFile cwd p t = (.ok (), t') :=
  change_of_ok removed

/-- Makes one directory; one that is already there will do. -/
def ensureDirectory (cwd : Location) (p : Path) : FileM FileError Unit := fun t =>
  match t.makeDirectory cwd p with
  | .ok t' => (.ok (), t')
  | .error e => (if t.isDirectory cwd p then .ok () else .error e, t)

/-- Makes the first of the directories; if its parent is missing, the others
    before it. -/
def ensureDirectories (cwd : Location) : List Path → FileM FileError Unit
  | [] => pure ()
  | p :: parents => fun t =>
    match t.makeDirectory cwd p with
    | .error .notFound => (ensureDirectories cwd parents >>= fun _ => ensureDirectory cwd p) t
    | _ => ensureDirectory cwd p t

/-- Makes the directory and all that lead to it. -/
def makeDirectories (cwd : Location) (p : Path) : FileM FileError Unit := ensureDirectories cwd p.ancestors

end FileM

end ReleaseStamp
