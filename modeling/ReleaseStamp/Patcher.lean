import ReleaseStamp.Files.Access
import ReleaseStamp.Lockfile.VersionField

/-!
Stamping the version of one package in a lockfile on disk. The lockfile is read
once, and the stamped text is written once, even if nothing changed in it; a
failure before the write leaves every file as it was.
-/
namespace ReleaseStamp

/-- Where the stamped text goes. -/
inductive Output where
  /-- Over the lockfile that was read. -/
  | inPlace
  | file (path : Path)
deriving DecidableEq, Repr

/-- What to do when the lockfile does not list the package. -/
inductive Missing where
  /-- Write the text unchanged. -/
  | passThrough
  /-- Fail and write nothing. -/
  | fail
deriving DecidableEq, Repr

inductive Change where
  | updated (previous : String)
  | unchanged
  | notFound
deriving DecidableEq, Repr

inductive PatchError where
  | unreadable (lockfile : Path) (cause : FileError)
  | unsearchable (cause : Lockfile.SearchError)
  | packageNotFound (package : String) (lockfile : Path)
  | unwritable (output : Path) (cause : FileError)
deriving DecidableEq, Repr

namespace PatchError

def message : PatchError → String
  | .unreadable lockfile _ => "failed to read lockfile: " ++ lockfile.text
  | .unsearchable cause => cause.message
  | .packageNotFound package lockfile => "package `" ++ package ++ "` not found in " ++ lockfile.text
  | .unwritable output _ => "failed to write " ++ output.text

def causes : PatchError → List String
  | .unreadable _ cause | .unwritable _ cause => [cause.message]
  | .unsearchable _ | .packageNotFound _ _ => []

end PatchError

/-- A stamp for the version of one package. -/
structure Patcher where
  lockfile : Path
  package : String
  output : Output := .inPlace
  missing : Missing := .passThrough
deriving DecidableEq, Repr

namespace Patcher

def defaultLockfile : Path := ⟨"./Cargo.lock"⟩

def defaultPackage : String := "ram-machine"

def alternateOutput : Path := ⟨"modified_dependencies.toml"⟩

/-- The stock patcher, which overwrites the default lockfile. -/
def stock : Patcher := { lockfile := defaultLockfile, package := defaultPackage }

/-- The stock patcher that writes beside the lockfile instead. -/
def alternate : Patcher := { stock with output := .file alternateOutput }

/-- The path that the stamped text goes to. -/
def outputPath (p : Patcher) : Path :=
  match p.output with
  | .inPlace => p.lockfile
  | .file path => path

/-- What stamping did to the version: the tag may have stood there already. -/
def changeOf (stamped : Lockfile.Stamped) (tag : String) : Change :=
  match stamped.previous with
  | none => .notFound
  | some previous => if previous = tag then .unchanged else .updated previous

/-- The stamped text of the lockfile and what changed in it. A package that has
    to be there and is not is a failure. -/
def stampText (p : Patcher) (text tag : String) : Except PatchError (String × Change) :=
  match Lockfile.stamp text p.package tag with
  | .error cause => .error (.unsearchable cause)
  | .ok stamped =>
    if stamped.previous = none ∧ p.missing = .fail then .error (.packageNotFound p.package p.lockfile)
    else .ok (stamped.text, changeOf stamped tag)

/-- Reads the lockfile, stamps the tag into it and writes the result. -/
def run (p : Patcher) (cwd : Location) (tag : String) : FileM PatchError Change := do
  let text ← (FileM.readText cwd p.lockfile).mapError (.unreadable p.lockfile)
  let (stamped, change) ← FileM.ask fun _ => p.stampText text tag
  (FileM.writeText cwd p.outputPath stamped).mapError (.unwritable p.outputPath)
  pure change

/-- The pre-commit entry point: the stock patcher that writes beside the lockfile. -/
def preCommit (cwd : Location) (tag : String) : FileM PatchError Unit := do
  let _ ← alternate.run cwd tag
  pure ()

end Patcher

end ReleaseStamp
