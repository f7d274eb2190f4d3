import ReleaseStamp.Config
import ReleaseStamp.Patcher

/-!
The settings of one run: what the command line gives wins over the config file,
and the config file over the defaults. A path in the config file is relative to
the directory of that file.
-/
namespace ReleaseStamp

/-- What the command line gives. -/
structure Overrides where
  config : Option Path := none
  lockfile : Option Path := none
  package : Option String := none
  output : Option Path := none
  alternate : Bool := false
  strict : Bool := false
  stage : Bool := false
deriving DecidableEq, Repr

structure Settings where
  package : String
  lockfile : Path
  output : Output
  missing : Missing
  stage : Bool
deriving DecidableEq, Repr

namespace Settings

/-- The config file that is looked for if none is given. -/
def defaultConfig : Path := ⟨"lockstamp.toml"⟩

/-- The directory of a config file, unless it is the working directory. -/
def baseOf (config : Path) : Option Path := config.parent?.filter (!·.isEmpty)

/-- The path as seen from the base. -/
def anchor (base : Option Path) (p : Path) : Path :=
  match base with
  | some base => base.join p
  | none => p

/-- The path that the config sets for the output, or the one of the options. -/
def outputOf (config : Config) (base : Option Path) (o : Overrides) : Output :=
  match o.output with
  | some path => .file path
  | none =>
    if o.alternate then .file Patcher.alternateOutput
    else match config.output with
      | some path => .file (anchor base path)
      | none => .inPlace

/-- The settings from a config and the options. -/
def merge (config : Config) (base : Option Path) (o : Overrides) : Settings where
  package := (o.package.or config.package).getD Patcher.defaultPackage
  lockfile := o.lockfile.getD (anchor base (config.lockfile.getD Patcher.defaultLockfile))
  output := outputOf config base o
  missing := if o.strict || config.strict then .fail else .passThrough
  stage := o.stage || config.stage

/-- The settings of a run in the working directory. A config file that is given
    has to be there, the default one is used if it is. -/
def resolve (cwd : Location) (o : Overrides) (t : FileTree) : Except ConfigError Settings :=
  match o.config with
  | some path => (Config.load cwd path t).map fun config => merge config (baseOf path) o
  | none =>
    if t.isFile cwd defaultConfig then (Config.load cwd defaultConfig t).map fun config => merge config none o
    else .ok (merge {} none o)

def patcher (s : Settings) : Patcher := ⟨s.lockfile, s.package, s.output, s.missing⟩

end Settings

end ReleaseStamp
