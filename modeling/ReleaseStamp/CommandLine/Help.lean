import ReleaseStamp.CommandLine.Arguments

/-!
The help texts. Names stand in one column and what they mean in another, two
spaces after the widest name.
-/
namespace ReleaseStamp.CommandLine

def program : String := "lockstamp"

def release : String := "0.1.0"

/-- The text with spaces after it up to a width. -/
def padded (width : Nat) (text : String) : String :=
  text ++ String.ofList (List.replicate (width - text.length) ' ')

/-- Rows of a name and a meaning, the meanings in a column of their own. -/
def columns (rows : List (String × String)) : String :=
  let width := rows.foldl (fun width row => max width row.1.length) 0
  String.join (rows.map fun row => padded (width + 2) row.1 ++ row.2 ++ "\n")

/-- The word that asks for help, with its meaning. -/
def helpAbout : String := "Print this message or the help of the given subcommand(s)"

def commandTable : String :=
  "Commands:\n" ++
    columns ((Subcommand.all.map fun c => ("  " ++ c.word, c.about)) ++ [("  " ++ helpWord, helpAbout)])

def programUsage : String := "Usage: " ++ program ++ " <COMMAND>\n\n"

def summary : String := program ++ " - stamp a release tag into a lockfile"

def shortHelp : String :=
  summary ++ "\n\n" ++ programUsage ++ commandTable ++ "\nOptions:\n" ++
    columns [("  -h, --help", "Print help (see more with '--help')"), ("  -V, --version", "Print version")]

def longHelp : String :=
  "Command-line interface definition.\n\nParsed using `clap` derive macros.\n\n" ++ programUsage ++ commandTable ++
    "\nOptions:\n  -h, --help\n          Print help (see a summary with '-h')\n\n" ++
    "  -V, --version\n          Print version\n"

/-- The help about the word that asks for help. -/
def helpHelp : String :=
  helpAbout ++ "\n\nUsage: " ++ program ++ " " ++ helpWord ++ " [COMMAND]...\n\nArguments:\n" ++
    columns [("  [COMMAND]...", "Print help for the subcommand(s)")]

/-- What usage tells about the options of a subcommand. -/
def optionUsage : Subcommand → String
  | .patch => " [OPTIONS] " ++ Opt.shown .tag
  | .showVersion | .install => " [OPTIONS]"
  | .uninstall => ""

/-- The meaning of an option, with the tag of the environment where it counts. -/
def optionAbout (tag : Option String) : Opt → String
  | .tag => Opt.about .tag ++ " [env: LOCKSTAMP_TAG=" ++ tag.getD "" ++ "]"
  | o => o.about

def subcommandHelp (tag : Option String) (c : Subcommand) : String :=
  c.about ++ "\n\nUsage: " ++ program ++ " " ++ c.word ++ optionUsage c ++ "\n\nOptions:\n" ++
    columns ((c.options.map fun o => ("      " ++ o.shown, optionAbout tag o)) ++ [("  -h, --help", "Print help")])

def help (tag : Option String) : Topic → String
  | .program true => longHelp
  | .program false => shortHelp
  | .subcommand c => subcommandHelp tag c
  | .help => helpHelp

def version : String := program ++ " " ++ release ++ "\n"

end ReleaseStamp.CommandLine
