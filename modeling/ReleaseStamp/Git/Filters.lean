import ReleaseStamp.Git.Attributes
import ReleaseStamp.Git.Library
import ReleaseStamp.Git.Opening

/-!
Content filters: what is changed in the bytes of a file before they are staged.
Settings and attributes choose them. One turns CRLF into LF, unless the bytes
look like no text or the index holds a CR for the file already; the other drops
what a keyword was expanded to.
-/
namespace ReleaseStamp.Git

/-! ## Line ends -/

def carriageReturn : UInt8 := 13

def lineFeed : UInt8 := 10

/-- The bytes without a CR in front of an LF. -/
def dropReturns : List UInt8 → List UInt8
  | [] => []
  | b :: rest =>
    if b = carriageReturn ∧ rest.head? = some lineFeed then dropReturns rest else b :: dropReturns rest

/-- A byte that a text may hold. -/
def isTextual (b : UInt8) : Bool := (31 < b && b != 127) || b ∈ [8, 9, 11, 12, 27]

/-- Bytes of which too many are none of a text. -/
def isGarbled (data : List UInt8) : Bool :=
  data.contains 0 ||
    data.countP isTextual / 128 < data.countP fun b => !isTextual b && b != carriageReturn && b != lineFeed

/-- Some CR stands in front of no LF. -/
def hasBareReturn : List UInt8 → Bool
  | [] => false
  | b :: rest => (b == carriageReturn && rest.head? != some lineFeed) || hasBareReturn rest

/-- The index holds a CR for the path already. -/
def returnsStaged (path : String) (index : Index) : Bool :=
  index.any fun entry => entry.path == path && entry.blob.data.toList.contains carriageReturn

/-- What becomes of the line ends of a file. -/
inductive LineEnds where
  | kept
  /-- LF, if it looks like a text. -/
  | guessed
  | converted
deriving DecidableEq, Repr

def LineEnds.filters (path : String) : LineEnds → List Filter
  | .kept => []
  | .guessed => [fun index data =>
      if isGarbled data.data.toList || hasBareReturn data.data.toList || returnsStaged path index then data
      else ⟨(dropReturns data.data.toList).toArray⟩]
  | .converted => [fun _ data => ⟨(dropReturns data.data.toList).toArray⟩]

/-- The setting that has line ends converted. -/
def convertsEnds (settings : List Setting) : Except Fault Bool :=
  match ConfigFile.last? settings "core.autocrlf" with
  | none => .ok false
  | some setting =>
    if setting.value.map ConfigFile.lower = some "input".toList then .ok true
    else (ConfigFile.truth setting.value).mapError fun _ => .unmapped (String.ofList (setting.value.getD []))

/-- What an attribute says of the line ends. -/
def LineEnds.ofState : AttributeState → Option LineEnds
  | .set => some .converted
  | .unset => some .kept
  | .unspecified => none
  | .value text =>
    if text = "input".toList then some .converted
    else if text = "auto".toList then some .guessed
    else none

/-- What becomes of the line ends of a file with these attributes. -/
def lineEndsOf (setting : Bool) (stateOf : String → AttributeState) : LineEnds :=
  match (LineEnds.ofState (stateOf "text")).or (LineEnds.ofState (stateOf "crlf")) with
  | some ends => ends
  | none =>
    if stateOf "eol" ∈ [.value "lf".toList, .value "crlf".toList] then .converted
    else if setting then .guessed
    else .kept

/-! ## Keywords -/

def keyword : List UInt8 := "$Id".toUTF8.toList

def dollar : UInt8 := 36

/-- The bytes with the first keyword that has been expanded as it is without it. -/
def unexpand : List UInt8 → List UInt8
  | [] => []
  | b :: rest =>
    if keyword.isPrefixOf (b :: rest) then
      match (rest.drop 2).dropWhile (· != dollar) with
      | [] => b :: rest
      | after => keyword ++ after
    else b :: unexpand rest

def keywordFilter : Filter := fun _ data =>
  if isGarbled data.data.toList then data else ⟨(unexpand data.data.toList).toArray⟩

/-! ## The filters of a file -/

/-- The filters for a path, given by its names below the work tree. -/
def filtersFor (t : FileTree) (directory tree : Location) (names : List String) : Except Fault (List Filter) := do
  let settings ← settingsOf t directory
  let common ← commonDirectory t directory
  let setting ← convertsEnds settings
  let stateOf := attributeOf t common tree names
  .ok ((lineEndsOf setting stateOf).filters ("/".intercalate names) ++
    if stateOf "ident" = .set then [keywordFilter] else [])

end ReleaseStamp.Git
