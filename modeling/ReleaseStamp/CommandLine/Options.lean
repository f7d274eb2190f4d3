/-!
The subcommands and their options: how each option is written, what value it
takes, and what the help says about it.
-/
namespace ReleaseStamp.CommandLine

/-- A subcommand that does something. -/
inductive Subcommand where
  | patch
  | showVersion
  | install
  | uninstall
deriving DecidableEq, Repr

namespace Subcommand

def all : List Subcommand := [.patch, .showVersion, .install, .uninstall]

def word : Subcommand → String
  | .patch => "patch"
  | .showVersion => "show"
  | .install => "install"
  | .uninstall => "uninstall"

def about : Subcommand → String
  | .patch => "Stamp a tag into the package's version field"
  | .showVersion => "Print the package's current version"
  | .install => "Install the git pre-commit hook"
  | .uninstall => "Remove the git pre-commit hook"

def ofWord? (word : String) : Option Subcommand := all.find? (·.word = word)

end Subcommand

/-- What follows an option. -/
inductive Takes where
  | nothing
  /-- Any text. -/
  | text
  /-- A path, which must not be empty. -/
  | path
deriving DecidableEq, Repr

inductive Opt where
  | tag
  | config
  | lockfile
  | package
  | output
  | alternate
  | strict
  | stage
  | force
deriving DecidableEq, Repr

namespace Opt

def word : Opt → String
  | .tag => "tag"
  | .config => "config"
  | .lockfile => "lockfile"
  | .package => "package"
  | .output => "output"
  | .alternate => "alternate"
  | .strict => "strict"
  | .stage => "stage"
  | .force => "force"

def takes : Opt → Takes
  | .tag | .package => .text
  | .config | .lockfile | .output => .path
  | .alternate | .strict | .stage | .force => .nothing

def about : Opt → String
  | .tag => "Version written into the lockfile"
  | .config => "Config file (default: ./lockstamp.toml if present)"
  | .lockfile => "Lockfile to read (default: ./Cargo.lock)"
  | .package => "Package whose version is stamped (default: ram-machine)"
  | .output => "Write the result here instead of overwriting the lockfile"
  | .alternate => "Write the result to ./modified_dependencies.toml"
  | .strict => "Fail if the package is not in the lockfile"
  | .stage => "`git add` the written file"
  | .force => "Rewrite the hook block if it is already installed"

/-- The option as messages write it. -/
def shown (o : Opt) : String :=
  match o.takes with
  | .nothing => "--" ++ o.word
  | .text | .path => "--" ++ o.word ++ " <" ++ o.word.toUpper ++ ">"

/-- The options that must not be given together with another one. -/
def exclusive : List Opt := [.output, .alternate]

end Opt

/-- The options of a subcommand, in the order of its help. -/
def Subcommand.options : Subcommand → List Opt
  | .patch => [.tag, .config, .lockfile, .package, .output, .alternate, .strict, .stage]
  | .showVersion => [.config, .lockfile, .package]
  | .install => [.force]
  | .uninstall => []

/-- The option that a subcommand has under a word. -/
def Subcommand.option? (c : Subcommand) (word : String) : Option Opt := c.options.find? (·.word = word)

end ReleaseStamp.CommandLine
