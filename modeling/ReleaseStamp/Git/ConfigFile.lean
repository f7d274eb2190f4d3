import ReleaseStamp.Git.Fault

/-!
The config file of a repository: sections in brackets, and variables with
values below them. Of a variable that is set more than once the last value
counts.
-/
namespace ReleaseStamp.Git

/-- A variable, with its section in front, and its value if it has one. -/
structure Setting where
  name : List Char
  value : Option (List Char)

namespace ConfigFile

def isBlank (c : Char) : Bool := c == ' ' || (9 ≤ c.toNat && c.toNat ≤ 13)

def isKeyChar (c : Char) : Bool := c.isAlphanum || c == '-'

def lower (cs : List Char) : List Char := cs.map Char.toLower

/-! ## Headers -/

/-- The name of a subsection: what stands in quotes, with escapes. -/
def subsection : List Char → List Char
  | [] => []
  | '\\' :: c :: rest => c :: subsection rest
  | c :: rest => if c = '"' then [] else c :: subsection rest

/-- A header line from its bracket on: the section, and what follows the header. -/
def header (line : List Char) : Except ConfigFault (List Char × List Char) :=
  if ']' ∉ line then .error .unclosedHeader
  else
    let inside := line.drop 1
    let name := inside.takeWhile fun c => isKeyChar c || c == '.'
    match inside.drop name.length with
    | ']' :: rest => .ok (lower name, rest)
    | c :: rest =>
      if isBlank c then
        let sub := subsection ((rest.dropWhile (· != '"')).drop 1)
        .ok (lower name ++ '.' :: sub, (rest.dropWhile (· != ']')).drop 1)
      else .error (.headerCharacter (name.length + 2))
    | [] => .error .unclosedHeader

/-! ## Variables -/

/-- The line up to a comment; `inQuotes` tells whether quotes are open. -/
def uncomment (inQuotes : Bool) : List Char → List Char
  | [] => []
  | '\\' :: c :: rest => '\\' :: c :: uncomment inQuotes rest
  | c :: rest =>
    if c = '"' then c :: uncomment (!inQuotes) rest
    else if !inQuotes && (c == '#' || c == ';') then []
    else c :: uncomment inQuotes rest

def trimEnd (cs : List Char) : List Char := (cs.reverse.dropWhile isBlank).reverse

/-- The value that a text writes: quotes are dropped, escapes are resolved. -/
def unescape : List Char → Except Fault (List Char)
  | [] => .ok []
  | '\\' :: c :: rest =>
    let meant := match c with
      | 'n' => some '\n'
      | 't' => some '\t'
      | 'b' => some '\x08'
      | '"' => some '"'
      | '\\' => some '\\'
      | _ => none
    match meant with
    | some c => (unescape rest).map (c :: ·)
    | none => .error (.escape (String.ofList ('\\' :: c :: rest)))
  | c :: rest => if c = '"' then unescape rest else (unescape rest).map (c :: ·)

/-- A variable line: its name, and its value if it has one. -/
def variableOf (line : List Char) : Except ConfigFault (List Char × Option (List Char)) :=
  let name := line.takeWhile isKeyChar
  if name = [] then .error .key
  else match (line.drop name.length).dropWhile isBlank with
    | [] => .ok (lower name, none)
    | '=' :: value => .ok (lower name, some (trimEnd (value.dropWhile isBlank)))
    | _ => .error .key

/-- One line that goes on over the lines after it as long as each of them ends
    in a lone backslash; and how many lines those are. -/
def continued : List Char → List (List Char) → List Char × Nat
  | line, [] => (line, 0)
  | line, next :: rest =>
    let slashes := (line.reverse.takeWhile (· == '\\')).length
    if slashes % 2 = 1 then
      let (more, count) := continued (line.dropLast ++ next) rest
      (more, count + 1)
    else (line, 0)

/-- The settings of the lines, where `skip` lines belong to the one before. -/
def settingsOf (file : Path) (heading : List Char) (number skip : Nat) :
    List (List Char) → Except Fault (List Setting)
  | [] => .ok []
  | line :: rest =>
    if 0 < skip then settingsOf file heading (number + 1) (skip - 1) rest
    else
      let line := line.dropWhile isBlank
      let opened := if line.head? = some '[' then (header line).map some else .ok none
      match opened with
      | .error fault => .error (.config file number fault)
      | .ok opened =>
        let heading := (opened.map (·.1)).getD heading
        let line := ((opened.map (·.2)).getD line).dropWhile isBlank
        match line with
        | [] | '#' :: _ | ';' :: _ => settingsOf file heading (number + 1) 0 rest
        | _ =>
          let (whole, more) := continued line rest
          match variableOf (trimEnd (uncomment false whole)) with
          | .error fault => .error (.config file number fault)
          | .ok (name, none) =>
            (settingsOf file heading (number + 1) more rest).map (⟨heading ++ '.' :: name, none⟩ :: ·)
          | .ok (name, some value) => do
            let value ← unescape value
            let later ← settingsOf file heading (number + 1) more rest
            .ok (⟨heading ++ '.' :: name, some value⟩ :: later)

/-- The settings in a config file, whose path is told with its faults. A mark of
    the encoding in front is not part of the text. -/
def parse (file : Path) (text : List Char) : Except Fault (List Setting) :=
  settingsOf file [] 1 0 (Text.split '\n' (if text.head? = some '\uFEFF' then text.tail else text))

/-- The last setting of a variable. -/
def last? (settings : List Setting) (name : String) : Option Setting :=
  settings.reverse.find? (·.name = name.toList)

/-! ## Values -/

/-- What a character counts as a digit; one that is none counts as too much for
    any base. -/
def digitValue (c : Char) : Nat :=
  if c.isDigit then c.toNat - '0'.toNat
  else if c.isAlpha then c.toLower.toNat - 'a'.toNat + 10
  else 36

/-- The base that a number is written in, and the number without the mark of it. -/
def baseOf : List Char → Nat × List Char
  | '0' :: 'x' :: rest | '0' :: 'X' :: rest => (16, rest)
  | '0' :: rest => (8, '0' :: rest)
  | cs => (10, cs)

/-- The factor that is written behind a number. -/
def factor? (cs : List Char) : Option Int :=
  [([], 1), (['k'], 1024), (['m'], 1048576), (['g'], 1073741824)].lookup (lower cs)

/-- The sign of a number, and what follows it. -/
def signOf : List Char → Int × List Char
  | '-' :: rest => (-1, rest)
  | '+' :: rest => (1, rest)
  | cs => (1, cs)

/-- The number that a value writes, if it has 32 bits at most. -/
def number? (value : List Char) : Option Int := do
  let (sign, unsigned) := signOf (value.dropWhile isBlank)
  let (base, cs) := baseOf unsigned
  let digits := cs.takeWhile (digitValue · < base)
  let factor ← factor? (cs.drop digits.length)
  let number := sign * factor * digits.foldl (fun n c => n * base + digitValue c) 0
  if digits = [] ∨ number < -2147483648 ∨ 2147483647 < number then none else some number

/-- The truth that a value tells; a variable without a value is true. -/
def truth : Option (List Char) → Except Fault Bool
  | none => .ok true
  | some value =>
    if lower value ∈ ["true".toList, "yes".toList, "on".toList] then .ok true
    else if lower value ∈ ["false".toList, "no".toList, "off".toList, []] then .ok false
    else match number? value with
      | some number => .ok (number != 0)
      | none => .error (.boolean (String.ofList value))

end ConfigFile

end ReleaseStamp.Git
