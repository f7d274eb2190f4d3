import ReleaseStamp.Git.ConfigFile
import ReleaseStamp.Git.Repository

/-!
Git directories in a file tree: what makes a directory one, and the small files
that lead from one place to another. A git directory may share most of what it
holds with a common directory, and be linked to a work tree far away from it.
-/
namespace ReleaseStamp.Git

/-! ## Texts -/

/-- The characters of a line whose bytes are given one character each. A line
    that is no text keeps them. -/
def decode (line : List Char) : List Char :=
  match String.fromUTF8? ⟨(line.map fun c => UInt8.ofNat c.toNat).toArray⟩ with
  | some text => text.toList
  | none => line

/-- The characters of a file, line by line where it is no text as a whole. -/
def textOf (content : Content) : List Char :=
  match content.text? with
  | some text => text.toList
  | none =>
    let bytes := content.raw.toList.map fun b => Char.ofNat b.toNat
    Text.join '\n' ((Text.split '\n' bytes).map decode)

/-! ## Paths in files -/

/-- A path that leads nowhere. -/
def nowhere : Path := ⟨"\x00"⟩

/-- The path that a file names, without the blanks at its end. Bytes that are no
    text name one that leads nowhere. -/
def pathIn (content : Content) : Path :=
  match content.text? with
  | some text => ⟨String.ofList (ConfigFile.trimEnd text.toList)⟩
  | none => nowhere

/-- Where a path leads, told as git tells it. -/
def resolve (t : FileTree) (dir : Location) (shown : Path) : Except Fault Location :=
  (t.canonical dir shown).mapError (.unresolved shown)

/-! ## Git directories -/

/-- The directory that holds what a git directory shares with others: itself,
    unless a file in it names another. -/
def commonDirectory (t : FileTree) (dir : Location) : Except Fault Location :=
  match t.find dir ⟨"commondir"⟩ with
  | .ok (_, .file _ content) => resolve t dir (dir.directoryPath.join (pathIn content))
  | _ => .ok dir

/-- A git directory holds a file and shares two directories. -/
def isGitDirectory (t : FileTree) (dir : Location) : Except Fault Bool := do
  let common ← commonDirectory t dir
  .ok (t.isFile dir ⟨"HEAD"⟩ && t.isDirectory common ⟨"objects"⟩ && t.isDirectory common ⟨"refs"⟩)

/-! ## Links -/

def linkKey : List Char := "gitdir:".toList

/-- The target that the text of a link file names. -/
def linkTarget? (text : List Char) : Option Path :=
  let text := ConfigFile.trimEnd text
  if linkKey.isPrefixOf text ∧ linkKey.length < text.length then
    some ⟨String.ofList ((text.drop linkKey.length).dropWhile ConfigFile.isBlank)⟩
  else none

/-- The directory around what a path names, with one slash behind it. -/
def around (p : Path) : Path :=
  let slashes (cs : List Char) := cs.dropWhile (· == '/')
  ⟨String.ofList ((slashes ((slashes p.text.toList.reverse).dropWhile (· != '/'))).reverse ++ ['/'])⟩

/-- The work tree that a git directory is linked to: the directory around the
    link file that it names. -/
def linkedWorkTree? (t : FileTree) (dir : Location) : Option Path :=
  match t.find dir ⟨"gitdir"⟩ with
  | .ok (_, .file _ content) =>
    if pathIn content = nowhere then some nowhere else some (around (dir.directoryPath.join (pathIn content)))
  | _ => none

end ReleaseStamp.Git
