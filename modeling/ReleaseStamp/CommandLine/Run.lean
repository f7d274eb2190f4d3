import ReleaseStamp.Command
import ReleaseStamp.CommandLine.Help
import ReleaseStamp.Git.Builtin

/-!
One run of the program: its arguments are read, the request is carried out, and
what is to be told goes to the two outputs with an exit code.
-/
namespace ReleaseStamp.CommandLine

/-- What a run finds around it. -/
structure Surroundings extends Command.Environment where
  /-- The tag that the environment gives. -/
  tag : Option String := none
  /-- Words of warning are coloured. -/
  colour : Bool := false
deriving DecidableEq, Repr

/-- The surroundings that environment variables describe. -/
def Surroundings.ofVariables (directory : Location) (value? : String → Option String) : Surroundings where
  directory := directory
  indexFile := ((value? "GIT_INDEX_FILE").filter (· ≠ "")).map Path.mk
  tag := value? "LOCKSTAMP_TAG"
  colour := ((value? "CLICOLOR_FORCE").map (· != "0")).getD false

/-- What a run leaves behind besides the files. -/
structure Ending where
  exit : Nat
  out : String := ""
  err : String := ""
deriving DecidableEq, Repr

/-! ## Reports -/

/-- A word in bold and in a colour, which terminals know by its number. -/
def coloured (colour : Bool) (number : Nat) (word : String) : String :=
  if colour then "\x1b[1;" ++ toString number ++ "m" ++ word ++ "\x1b[0m" else word

/-- Terminals' number of the colour of warnings. -/
def yellow : Nat := 33

/-- Terminals' number of the colour of notes. -/
def cyan : Nat := 36

/-- The line of a report on the first output. -/
def outLine : Command.Report → String
  | .line text => text ++ "\n"
  | .warning _ | .note _ => ""

/-- The line of a report on the second output. -/
def errLine (colour : Bool) : Command.Report → String
  | .line _ => ""
  | .warning text => coloured colour yellow "warning:" ++ " " ++ text ++ "\n"
  | .note text => coloured colour cyan "note:" ++ " " ++ text ++ "\n"

def Ending.success (colour : Bool) (reports : List Command.Report) : Ending where
  exit := 0
  out := String.join (reports.map outLine)
  err := String.join (reports.map (errLine colour))

/-! ## Errors -/

/-- The text with the given spaces before each further line. -/
def indented (spaces text : String) : String :=
  String.ofList (text.toList.flatMap fun c => if c = '\n' then c :: spaces.toList else [c])

/-- The causes of an error; several are numbered. -/
def causeLines : List String → String
  | [] => ""
  | [cause] => "\nCaused by:\n    " ++ indented "    " cause ++ "\n"
  | causes =>
    "\nCaused by:\n" ++ String.join (causes.mapIdx fun n cause =>
      "    " ++ toString n ++ ": " ++ indented "       " cause ++ "\n")

/-- The causes that a run tells. Faults in a config file are not told apart. -/
def shownCauses : Command.CommandError → List String
  | .config (.unfit _ _) => ["TOML parse error"]
  | e => e.causes

def Ending.failure (e : Command.CommandError) : Ending where
  exit := 1
  err := "Error: " ++ e.message ++ "\n" ++ causeLines (shownCauses e)

/-- A run that asked for nothing that is to be done. -/
def Ending.stopped (tag : Option String) : Stop → Ending
  | .help topic => { exit := 0, out := help tag topic }
  | .version => { exit := 0, out := version }
  | .misuse .nothing => { exit := 2, err := shortHelp }
  | .misuse m => { exit := 2, err := m.message ++ "\n" }

/-! ## Runs -/

variable [Git.Library]

def perform (env : Command.Environment) : Request → Command.CommandM (List Command.Report)
  | .patch o tag => Command.patch env o tag
  | .showVersion o => Command.showVersion env o
  | .install force => Command.install env force
  | .uninstall => Command.uninstall env

def run (s : Surroundings) (arguments : List String) (t : FileTree) : Ending × FileTree :=
  match parse s.tag arguments with
  | .error stop => (.stopped s.tag stop, t)
  | .ok request =>
    match perform s.toEnvironment request t with
    | (.ok reports, t') => (.success s.colour reports, t')
    | (.error e, t') => (.failure e, t')

end ReleaseStamp.CommandLine
