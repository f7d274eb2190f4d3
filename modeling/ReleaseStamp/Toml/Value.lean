import ReleaseStamp.Decimal.Binary64

/-!
The values of a TOML document, and what may be added to a table. How a table
came to be decides who may extend it: `Table.assign` puts a value under a
dotted key, `Table.atHeader` changes what a header names. Both refuse to define
anything twice.
-/
namespace ReleaseStamp.Toml

/-- How a table came to be. -/
inductive Origin where
  /-- By a header of its own. -/
  | header
  /-- On the way to a header below it. -/
  | passage
  /-- By a dotted key. -/
  | dotted
  /-- In braces, where it is complete. -/
  | inline
deriving DecidableEq, Repr

inductive Value where
  | string (text : String)
  | integer (n : Int)
  | real (x : Decimal.Binary64)
  | boolean (b : Bool)
  /-- A date, a time or both. -/
  | moment
  | array (items : List Value)
  | table (origin : Origin) (entries : List (String × Value))
  /-- The tables of a header in double brackets. -/
  | tables (elements : List (List (String × Value)))

abbrev Table := List (String × Value)

namespace Table

/-- The table with the value of a key changed, or a new key at its end. The
    change may refuse. -/
def alter (key : String) (change : Option Value → Option Value) : Table → Option Table
  | [] => (change none).map fun value => [(key, value)]
  | (name, value) :: rest =>
    if name = key then (change (some value)).map fun value => (name, value) :: rest
    else (alter key change rest).map ((name, value) :: ·)

/-- The list with its last element changed. -/
def alterLast (change : Table → Option Table) : List Table → Option (List Table)
  | [] => none
  | [last] => (change last).map ([·])
  | first :: next :: rest => (alterLast change (next :: rest)).map (first :: ·)

/-- A value that stands where nothing stood. -/
def fresh (value : Value) : Option Value → Option Value
  | none => some value
  | some _ => none

/-- The table with a new value under a dotted key. The key makes its own
    tables, and ends in one that a dotted key has made. -/
def assign (value : Value) : List String → Table → Option Table
  | [] => fun _ => none
  | [key] => alter key (fresh value)
  | key :: next :: keys => alter key fun
    | none => (assign value (next :: keys) []).map (.table .dotted)
    | some (.table .dotted entries) => (assign value (next :: keys) entries).map (.table .dotted)
    | some (.table .passage entries) =>
      if keys = [] then none else (assign value (next :: keys) entries).map (.table .passage)
    | some (.tables elements) =>
      if keys = [] then none else (alterLast (assign value (next :: keys)) elements).map .tables
    | some _ => none

/-- The table with what a header names changed. On the way tables are made, and
    of several tables the last is meant. -/
def atHeader (change : Option Value → Option Value) : List String → Table → Option Table
  | [] => fun _ => none
  | [key] => alter key change
  | key :: next :: keys => alter key fun
    | none => (atHeader change (next :: keys) []).map (.table .passage)
    | some (.table .inline _) => none
    | some (.table origin entries) => (atHeader change (next :: keys) entries).map (.table origin)
    | some (.tables elements) => (alterLast (atHeader change (next :: keys)) elements).map .tables
    | some _ => none

end Table

end ReleaseStamp.Toml
