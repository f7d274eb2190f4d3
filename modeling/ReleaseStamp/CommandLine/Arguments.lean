import ReleaseStamp.CommandLine.Options
import ReleaseStamp.Settings

/-!
Reading the arguments: from the words after the program's name to a request, or
to the reason why there is none. An option that waits for its value is settled
when the next option comes or the arguments end, so of two faults the one that
is settled first is told.
-/
namespace ReleaseStamp.CommandLine

/-- What the arguments ask for. -/
inductive Request where
  | patch (o : Overrides) (tag : String)
  | showVersion (o : Overrides)
  | install (force : Bool)
  | uninstall
deriving DecidableEq, Repr

inductive Topic where
  /-- The program as a whole, at length or in short. -/
  | program (long : Bool)
  | subcommand (c : Subcommand)
  /-- The word that asks for help. -/
  | help
deriving DecidableEq, Repr

inductive Misuse where
  /-- There is no argument at all. -/
  | nothing
  | unrecognized (word : String)
  | unexpected (argument : String)
  | needless (value option : String)
  | valueless (o : Opt)
  | repeated (o : Opt)
  | exclusive (first second : Opt)
  /-- Options that have to be given. -/
  | absent (options : List Opt)
deriving DecidableEq, Repr

/-- The first line that is told of a mistake other than the lack of arguments. -/
def Misuse.message : Misuse → String
  | .nothing => "error: no arguments"
  | .unrecognized word => "error: unrecognized subcommand '" ++ word ++ "'"
  | .unexpected argument => "error: unexpected argument '" ++ argument ++ "' found"
  | .needless value option =>
    "error: unexpected value '" ++ value ++ "' for '" ++ option ++ "' found; no more were expected"
  | .valueless o => "error: a value is required for '" ++ o.shown ++ "' but none was supplied"
  | .repeated o => "error: the argument '" ++ o.shown ++ "' cannot be used multiple times"
  | .exclusive first second =>
    "error: the argument '" ++ first.shown ++ "' cannot be used with '" ++ second.shown ++ "'"
  | .absent _ => "error: the following required arguments were not provided:"

/-- Why the arguments ask for nothing that is to be done. -/
inductive Stop where
  | help (topic : Topic)
  | version
  | misuse (m : Misuse)
deriving DecidableEq, Repr

/-! ## Words -/

/-- How a word looks. -/
inductive Form where
  /-- Two dashes alone: what follows is no option. -/
  | dashes
  /-- Two dashes, a name, and what follows an equals sign. -/
  | long (name : String) (value : Option String)
  /-- One dash and letters. -/
  | short (first : Char)
  | plain
deriving DecidableEq, Repr

/-- The name before the first equals sign, and the value after it. -/
def nameAndValue (cs : List Char) : String × Option String :=
  let name := cs.takeWhile (· != '=')
  (String.ofList name, if name.length < cs.length then some (String.ofList (cs.drop (name.length + 1))) else none)

def formOf (word : String) : Form :=
  match word.toList with
  | ['-', '-'] => .dashes
  | '-' :: '-' :: rest => .long (nameAndValue rest).1 (nameAndValue rest).2
  | '-' :: first :: _ => .short first
  | _ => .plain

/-! ## The options of a subcommand -/

/-- The options read so far. -/
structure Scan where
  /-- The options given, in their order, each with its value. -/
  given : List (Opt × String) := []
  /-- The last option, with its value once that is there, until it is settled. -/
  pending : Option (Opt × Option String) := none
  /-- Two dashes have come. -/
  trailing : Bool := false
deriving DecidableEq, Repr

namespace Scan

/-- One more option with its value. -/
def take (s : Scan) (o : Opt) (value : String) : Except Stop Scan :=
  if (s.given.lookup o).isSome then .error (.misuse (.repeated o))
  else if o.takes = .path ∧ value = "" then .error (.misuse (.valueless o))
  else .ok { s with given := s.given ++ [(o, value)], pending := none }

/-- Settles the option that waits. -/
def settle (s : Scan) : Except Stop Scan :=
  match s.pending with
  | none => .ok s
  | some (o, none) => .error (.misuse (.valueless o))
  | some (o, some value) => s.take o value

/-- An option that is written out. -/
def long (c : Subcommand) (s : Scan) (name : String) (value : Option String) : Except Stop Scan :=
  match c.option? name with
  | some o =>
    match o.takes, value with
    | .nothing, none => do (← s.settle).take o ""
    | .nothing, some value => .error (.misuse (.needless value o.shown))
    | _, some value => do (← s.settle).take o value
    | _, none => do .ok { ← s.settle with pending := some (o, none) }
  | none =>
    match name, value with
    | "help", none => do
      let _ ← s.settle
      .error (.help (.subcommand c))
    | "help", some value => .error (.misuse (.needless value "--help"))
    | _, _ => .error (.misuse (.unexpected ("--" ++ name)))

/-- An option of one letter. -/
def short (c : Subcommand) (s : Scan) (first : Char) : Except Stop Scan :=
  if first = 'h' then do
    let _ ← s.settle
    .error (.help (.subcommand c))
  else .error (.misuse (.unexpected (String.ofList ['-', first])))

def step (c : Subcommand) (s : Scan) (word : String) : Except Stop Scan :=
  if s.trailing then .error (.misuse (.unexpected word))
  else match formOf word, s.pending with
    | .dashes, _ => .ok { s with trailing := true }
    | .long name value, _ => s.long c name value
    | .short first, _ => s.short c first
    | .plain, some (o, none) => .ok { s with pending := some (o, some word) }
    | .plain, _ => .error (.misuse (.unexpected word))

def value? (s : Scan) (o : Opt) : Option String := s.given.lookup o

def isGiven (s : Scan) (o : Opt) : Bool := (s.value? o).isSome

def overrides (s : Scan) : Overrides where
  config := (s.value? .config).map Path.mk
  lockfile := (s.value? .lockfile).map Path.mk
  package := s.value? .package
  output := (s.value? .output).map Path.mk
  alternate := s.isGiven .alternate
  strict := s.isGiven .strict
  stage := s.isGiven .stage

/-- The request that the options make. The tag may come from the environment. -/
def request (c : Subcommand) (tag : Option String) (s : Scan) : Except Stop Request :=
  match (s.given.map (·.1)).filter (· ∈ Opt.exclusive) with
  | first :: second :: _ => .error (.misuse (.exclusive first second))
  | _ =>
    match c with
    | .patch =>
      match (s.value? .tag).or tag with
      | some tag => .ok (.patch s.overrides tag)
      | none => .error (.misuse (.absent [.tag]))
    | .showVersion => .ok (.showVersion s.overrides)
    | .install => .ok (.install (s.isGiven .force))
    | .uninstall => .ok .uninstall

end Scan

/-- The request of a subcommand and the words after it. -/
def parseSubcommand (c : Subcommand) (tag : Option String) (words : List String) : Except Stop Request := do
  let s ← words.foldlM (Scan.step c) {}
  (← s.settle).request c tag

/-! ## All arguments -/

def helpWord : String := "help"

/-- What help is about if words follow the one that asks for it. -/
def helpOn : List String → Stop
  | [] => .help (.program true)
  | word :: rest =>
    let topic := if word = helpWord then some Topic.help else (Subcommand.ofWord? word).map .subcommand
    match topic, rest with
    | some topic, [] => .help topic
    | some _, next :: _ => .misuse (.unrecognized next)
    | none, _ => .misuse (.unrecognized word)

/-- What a word before any subcommand asks for, unless it is two dashes. -/
def leading (word : String) : Stop :=
  match formOf word with
  | .long "help" none => .help (.program true)
  | .long "version" none => .version
  | .long name value =>
    match value with
    | some value =>
      if name = "help" ∨ name = "version" then .misuse (.needless value ("--" ++ name))
      else .misuse (.unexpected ("--" ++ name))
    | none => .misuse (.unexpected ("--" ++ name))
  | .short 'h' => .help (.program false)
  | .short 'V' => .version
  | .short first => .misuse (.unexpected (String.ofList ['-', first]))
  | .dashes | .plain => .misuse (.unrecognized word)

/-- What a word after two dashes asks for: no subcommand may follow them. -/
def trailing (word : String) : Stop :=
  if word = helpWord ∨ (Subcommand.ofWord? word).isSome then .misuse (.unexpected word)
  else .misuse (.unrecognized word)

/-- The request that the arguments make, with the tag of the environment. -/
def parse (tag : Option String) : List String → Except Stop Request
  | [] => .error (.misuse .nothing)
  | word :: rest =>
    if word = helpWord then .error (helpOn rest)
    else match Subcommand.ofWord? word with
      | some c => parseSubcommand c tag rest
      | none =>
        match formOf word, rest with
        | .dashes, [] => .error (.misuse .nothing)
        | .dashes, next :: _ => .error (trailing next)
        | _, _ => .error (leading word)

end ReleaseStamp.CommandLine
