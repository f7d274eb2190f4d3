import ReleaseStamp.Git.Directory

/-!
Attributes of files: lines of patterns with what they say of the files that
match. The last line that speaks of an attribute counts, and a file of
attributes nearer to the file in question before one that is farther away.
-/
namespace ReleaseStamp.Git

/-! ## Patterns -/

namespace Pattern

inductive Token where
  | char (c : Char)
  /-- One character that is no slash. -/
  | any
  /-- Characters that are no slashes. -/
  | star
  /-- Whole directories, or none. -/
  | directories
  /-- All that follows. -/
  | rest
  /-- One character of the ranges, or one of none of them. -/
  | range (negated : Bool) (ranges : List (Char × Char))
deriving DecidableEq, Repr

/-- The ranges up to the closing bracket, and what follows it. -/
def ranges : List Char → List (Char × Char) × List Char
  | [] => ([], [])
  | ']' :: rest => ([], rest)
  | low :: '-' :: high :: rest =>
    if high = ']' then ([(low, low), ('-', '-')], rest)
    else let (more, rest) := ranges rest; ((low, high) :: more, rest)
  | c :: rest => let (more, rest) := ranges rest; ((c, c) :: more, rest)

/-- The tokens of a pattern; `fresh` tells that a directory begins here. Each
    token takes one of the steps that are left. -/
def tokens (fresh : Bool) : Nat → List Char → List Token
  | 0, _ | _, [] => []
  | n + 1, '\\' :: c :: rest => .char c :: tokens false n rest
  | n + 1, '?' :: rest => .any :: tokens false n rest
  | n + 1, '[' :: '!' :: rest | n + 1, '[' :: '^' :: rest =>
    .range true (ranges rest).1 :: tokens false n (ranges rest).2
  | n + 1, '[' :: rest => .range false (ranges rest).1 :: tokens false n (ranges rest).2
  | n + 1, '*' :: cs =>
    match cs.dropWhile (· == '*') with
    | '/' :: rest =>
      if fresh ∧ cs.head? = some '*' then .directories :: tokens true n rest
      else .star :: tokens false n ('/' :: rest)
    | [] => if fresh ∧ cs.head? = some '*' then [.rest] else [.star]
    | rest => .star :: tokens false n rest
  | n + 1, c :: rest => .char c :: tokens (c == '/') n rest

/-- The text without some of its first characters, as long as these are of a kind. -/
def without (kind : Char → Bool) : List Char → List (List Char)
  | [] => [[]]
  | c :: rest => (c :: rest) :: if kind c then without kind rest else []

def matchesTokens : List Token → List Char → Bool
  | [], cs => cs.isEmpty
  | .char c :: ts, cs => match cs with
    | d :: rest => c == d && matchesTokens ts rest
    | [] => false
  | .any :: ts, cs => match cs with
    | d :: rest => d != '/' && matchesTokens ts rest
    | [] => false
  | .range negated ranges :: ts, cs => match cs with
    | d :: rest =>
      d != '/' && ((ranges.any fun (low, high) => low ≤ d && d ≤ high) != negated) && matchesTokens ts rest
    | [] => false
  | .star :: ts, cs => (without (· != '/') cs).any (matchesTokens ts)
  | .directories :: ts, cs =>
    matchesTokens ts cs || (without (fun _ => true) cs).any fun rest =>
      rest.head? == some '/' && matchesTokens ts rest.tail
  | .rest :: _, _ => true

end Pattern

/-- A path below the directory of the pattern, given by its names. A pattern
    without a slash is about the last name alone. -/
def matchesPattern (pattern : List Char) (names : List String) : Bool :=
  let anchored := if pattern.head? = some '/' then pattern.tail else pattern
  if pattern.getLast? = some '/' then false
  else Pattern.matchesTokens (Pattern.tokens true anchored.length anchored)
    (if '/' ∈ pattern then ("/".intercalate names).toList else (names.getLast?.getD "").toList)

/-! ## Attributes -/

/-- What a line says of an attribute. -/
inductive AttributeState where
  | set
  | unset
  | unspecified
  | value (text : List Char)
deriving DecidableEq, Repr

structure AttributeLine where
  pattern : List Char
  states : List (List Char × AttributeState)
deriving Repr

namespace AttributeLine

/-- The words of a line. -/
def words (line : List Char) : List (List Char) :=
  (Text.split ' ' (line.map fun c => if ConfigFile.isBlank c then ' ' else c)).filter (· ≠ [])

def stateOf (word : List Char) : List Char × AttributeState :=
  match word with
  | '-' :: name => (name, .unset)
  | '!' :: name => (name, .unspecified)
  | _ =>
    match word.dropWhile (· != '=') with
    | '=' :: value => (word.takeWhile (· != '='), .value value)
    | _ => (word, .set)

/-- What a word says; that a file is binary says two things more. -/
def statesOf (word : List Char) : List (List Char × AttributeState) :=
  if word = "binary".toList then [("binary".toList, .set), ("text".toList, .unset), ("crlf".toList, .unset)]
  else [stateOf word]

/-- A line of a file of attributes; comments, definitions and negated patterns
    are none. -/
def ofLine? (line : List Char) : Option AttributeLine :=
  match words line with
  | [] => none
  | pattern :: rest =>
    if (pattern.head?.any fun c => c == '#' || c == '!') ∨ "[attr]".toList.isPrefixOf pattern then none
    else some ⟨pattern, rest.flatMap statesOf⟩

end AttributeLine

/-- The files of attributes that are asked for a path below a work tree, each
    with the path as it is seen from there. The first one that knows counts. -/
def attributeFiles (common tree : Location) (names : List String) : List (Location × Path × List String) :=
  (common, ⟨"info/attributes"⟩, names) ::
    (List.range names.length).reverse.map fun count =>
      (tree ++ names.take count, ⟨".gitattributes"⟩, names.drop count)

/-- What a file of attributes says of a path. -/
def stateIn? (content : Content) (names : List String) (name : String) : Option AttributeState :=
  let lines := (Text.split '\n' (textOf content)).filterMap AttributeLine.ofLine?
  (lines.reverse.filter (matchesPattern ·.pattern names)).findSome? (·.states.reverse.lookup name.toList)

/-- The attribute of a path below a work tree. -/
def attributeOf (t : FileTree) (common tree : Location) (names : List String) (name : String) : AttributeState :=
  ((attributeFiles common tree names).findSome? fun (dir, file, seen) =>
    match t.find dir file with
    | .ok (_, .file _ content) => stateIn? content seen name
    | _ => none).getD .unspecified

end ReleaseStamp.Git
