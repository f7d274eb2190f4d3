import ReleaseStamp.Text.Lines

/-!
Paths as they are written, and the lexical operations on them: a path keeps
every slash and dot of its text. A directory of the lookup is found by walking
its steps; the lexical parent and the join never look at a file.
-/
namespace ReleaseStamp

/-- A path, spelled as it was given. -/
structure Path where
  text : String
deriving DecidableEq, Repr, Inhabited

/-- One step of a walk through directories. -/
inductive Step where
  /-- To an entry of the directory. -/
  | down (name : String)
  /-- To the parent directory. -/
  | up
  /-- A dot: nowhere else. -/
  | stay
  /-- The end of a path with a trailing slash: only a directory may stand here. -/
  | slash
deriving DecidableEq, Repr

namespace Path

def pieces (p : Path) : List (List Char) := Text.split '/' p.text.toList

def isEmpty (p : Path) : Bool := p.text.toList.isEmpty

def isAbsolute (p : Path) : Bool := p.text.toList.head? == some '/'

def endsInSlash (p : Path) : Bool := p.text.toList.getLast? == some '/'

/-- The step that a piece stands for; empty pieces are none. -/
def stepOf? (piece : List Char) : Option Step :=
  if piece = [] then none
  else if piece = ['.'] then some .stay
  else if piece = ['.', '.'] then some .up
  else some (.down (String.ofList piece))

def steps (p : Path) : List Step :=
  let walked := p.pieces.filterMap stepOf?
  if p.endsInSlash && !walked.isEmpty then walked ++ [.slash] else walked

/-- The path seen from a base: an absolute path stays itself, any other is appended
    after one slash. -/
def join (base p : Path) : Path :=
  if p.isAbsolute || base.isEmpty then p
  else if base.endsInSlash then ⟨base.text ++ p.text⟩
  else ⟨base.text ++ "/" ++ p.text⟩

/-! ## The lexical parent -/

/-- A piece that names nothing: empty or a dot. -/
def isIdle (piece : List Char) : Bool := piece == [] || piece == ['.']

/-- The pieces without the idle ones at the end. -/
def trimIdle (ps : List (List Char)) : List (List Char) := (ps.reverse.dropWhile isIdle).reverse

/-- The pieces without the last that names something. -/
def dropNamed (ps : List (List Char)) : List (List Char) := trimIdle (trimIdle ps).dropLast

/-- The path without its last component. The root and a path without components
    have none; the parent of a bare name is the empty path. -/
def parent? (p : Path) : Option Path :=
  match p.pieces with
  | [] :: next :: rest =>
    if trimIdle (next :: rest) = [] then none
    else match dropNamed (next :: rest) with
      | [] => some ⟨"/"⟩
      | body => some ⟨String.ofList (Text.join '/' ([] :: body))⟩
  | ['.'] :: rest =>
    if trimIdle rest = [] then some ⟨""⟩
    else some ⟨String.ofList (Text.join '/' (['.'] :: dropNamed rest))⟩
  | ps =>
    if trimIdle ps = [] then none
    else some ⟨String.ofList (Text.join '/' (dropNamed ps))⟩

/-- The path and its lexical parents, from the path itself up to the root or to
    the last one that is not empty. -/
def ancestors (p : Path) : List Path := go p.pieces.length p
where
  go : Nat → Path → List Path
    | 0, _ => []
    | n + 1, q =>
      match q.parent? with
      | none => if q.isEmpty then [] else [q]
      | some parent => q :: go n parent

end Path

/-! ## Locations -/

/-- Where something lies: the names on the way down from the root. -/
abbrev Location := List String

/-- The absolute path of a location. -/
def Location.path (loc : Location) : Path := ⟨"/" ++ String.intercalate "/" loc⟩

/-- The absolute path of a directory, with a slash at its end. -/
def Location.directoryPath (loc : Location) : Path :=
  ⟨loc.foldl (fun text name => text ++ name ++ "/") "/"⟩

end ReleaseStamp
