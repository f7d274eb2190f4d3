import ReleaseStamp.Toml.Statement

/-!
Reading a whole TOML document: its statements, put together to one table.
-/
namespace ReleaseStamp.Toml

/-- A document under construction. -/
structure Draft where
  table : Table := []
  /-- The key of the last header, empty before the first. -/
  current : List String := []

namespace Draft

/-- A header makes its table. It may take over one that only a header below it
    has made. -/
def openTable : Option Value → Option Value
  | none => some (.table .header [])
  | some (.table .passage entries) => some (.table .header entries)
  | some _ => none

/-- A header in double brackets makes one more table. -/
def openElement : Option Value → Option Value
  | none => some (.tables [[]])
  | some (.tables elements) => some (.tables (elements ++ [[]]))
  | some _ => none

/-- A pair goes into the table that its header has made last. -/
def extend (key : List String) (value : Value) : Option Value → Option Value
  | some (.table .header entries) => (Table.assign value key entries).map (.table .header)
  | some (.tables elements) => (Table.alterLast (Table.assign value key) elements).map .tables
  | _ => none

/-- The draft after one more statement. -/
def add (draft : Draft) : Statement → Option Draft
  | .pair key value =>
    let changed := match draft.current with
      | [] => Table.assign value key draft.table
      | header => Table.atHeader (extend key value) header draft.table
    changed.map fun table => { draft with table }
  | .header key => (Table.atHeader openTable key draft.table).map fun table => ⟨table, key⟩
  | .element key => (Table.atHeader openElement key draft.table).map fun table => ⟨table, key⟩

end Draft

/-- The text without the mark that may open it. -/
def afterOrderMark : List Char → List Char
  | '\ufeff' :: rest => rest
  | cs => cs

/-- The table that a document writes, or nothing if it is malformed. -/
def parse? (text : String) : Option Table := do
  let statements ← statements? (afterOrderMark text.toList)
  let draft ← statements.foldlM Draft.add {}
  some draft.table

end ReleaseStamp.Toml
