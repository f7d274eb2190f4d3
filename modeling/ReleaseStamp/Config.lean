import ReleaseStamp.Decimal.Shortest
import ReleaseStamp.Files.Access
import ReleaseStamp.Text.Quoted
import ReleaseStamp.Toml.Document

/-!
The config file: a TOML document with five known keys, all of them optional.
Keys are checked in their order, and the first fault is told.
-/
namespace ReleaseStamp

structure Config where
  package : Option String := none
  lockfile : Option Path := none
  output : Option Path := none
  strict : Bool := false
  stage : Bool := false
deriving DecidableEq, Repr

namespace Config

/-- What a key wants for its value. -/
inductive Wanted where
  | text
  | path
  | boolean
deriving DecidableEq, Repr

def Wanted.describe : Wanted → String
  | .text => "a string"
  | .path => "path string"
  | .boolean => "a boolean"

/-- A value as faults tell it. -/
def describe : Toml.Value → String
  | .boolean true => "boolean `true`"
  | .boolean false => "boolean `false`"
  | .integer n =>
    "integer `" ++ toString n ++ "`" ++
      (if n < -Int.pow 2 63 ∨ Int.pow 2 64 ≤ n then (if n < Int.pow 2 127 then " as i128" else " as u128") else "")
  | .real x => "floating point `" ++ String.ofList x.text ++ "`"
  | .string text => "string " ++ String.ofList (Text.quoted text.toList)
  | .array _ | .tables _ => "sequence"
  | .table _ _ | .moment => "map"

/-- What is wrong with the content of a document. -/
inductive Fault where
  | unknownKey (key : String)
  | wrongValue (value : Toml.Value) (wanted : Wanted)

def Fault.message : Fault → String
  | .unknownKey key =>
    "unknown field `" ++ key ++ "`, expected one of `package`, `lockfile`, `output`, `strict`, `stage`"
  | .wrongValue value wanted => "invalid type: " ++ describe value ++ ", expected " ++ wanted.describe

def textOf (wanted : Wanted) : Toml.Value → Except Fault String
  | .string text => .ok text
  | value => .error (.wrongValue value wanted)

def truthOf : Toml.Value → Except Fault Bool
  | .boolean b => .ok b
  | value => .error (.wrongValue value .boolean)

/-- The config with the value of one more key. -/
def set (config : Config) (key : String) (value : Toml.Value) : Except Fault Config :=
  match key with
  | "package" => (textOf .text value).map fun text => { config with package := some text }
  | "lockfile" => (textOf .path value).map fun text => { config with lockfile := some ⟨text⟩ }
  | "output" => (textOf .path value).map fun text => { config with output := some ⟨text⟩ }
  | "strict" => (truthOf value).map fun b => { config with strict := b }
  | "stage" => (truthOf value).map fun b => { config with stage := b }
  | _ => .error (.unknownKey key)

def ofTable (table : Toml.Table) : Except Fault Config :=
  (table.mergeSort fun a b => !decide (b.1 < a.1)).foldlM (fun config entry => config.set entry.1 entry.2) {}

end Config

/-- Why a config file cannot be used. -/
inductive ConfigError where
  | unreadable (path : Path) (cause : FileError)
  | malformed (path : Path)
  | unfit (path : Path) (fault : Config.Fault)

namespace ConfigError

def message : ConfigError → String
  | .unreadable path _ => "config not found: " ++ path.text
  | .malformed path | .unfit path _ => "failed to parse " ++ path.text

def causes : ConfigError → List String
  | .unreadable _ cause => [cause.message]
  | .malformed _ => ["TOML parse error"]
  | .unfit _ fault => [fault.message]

end ConfigError

namespace Config

def parse (path : Path) (text : String) : Except ConfigError Config :=
  match Toml.parse? text with
  | none => .error (.malformed path)
  | some table => (ofTable table).mapError (.unfit path)

def load (cwd : Location) (path : Path) (t : FileTree) : Except ConfigError Config :=
  match t.readText cwd path with
  | .error cause => .error (.unreadable path cause)
  | .ok text => parse path text

end Config

end ReleaseStamp
