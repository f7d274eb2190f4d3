import ReleaseStamp.Toml.Quotation

/-!
The statements of a TOML document: a header, or a key with its value. Values
nest to a limited depth; a list and a table in braces may run over lines.
-/
namespace ReleaseStamp.Toml

/-! ## Keys -/

def isKeyChar (c : Char) : Bool := c.isAlphanum || c == '_' || c == '-'

/-- One part of a key: a bare word, or a text in quotes. -/
def keyPart? (cs : List Char) : Option (String × List Char) :=
  let word := cs.takeWhile isKeyChar
  if word = [] then (shortString? cs).map fun read => (String.ofList read.1, read.2)
  else some (String.ofList word, cs.dropWhile isKeyChar)

/-- A key: its parts with dots between them, spaces around each. -/
def key? (cs : List Char) : Option (List String × List Char) :=
  match keyPart? (cs.dropWhile isSpace) with
  | none => none
  | some (part, rest) =>
    match rest.dropWhile isSpace with
    | '.' :: more =>
      if more.length < cs.length then (key? more).map fun read => (part :: read.1, read.2) else none
    | rest => some ([part], rest)
termination_by cs.length

/-- Parts that one key may have. -/
def partLimit : Nat := 81

/-- A key with no more parts than allowed. -/
def boundedKey? (cs : List Char) : Option (List String × List Char) :=
  (key? cs).filter fun read => read.1.length ≤ partLimit

/-! ## Values -/

/-- The text after spaces, comments and ends of lines; `comment` tells whether
    a comment is open before it. -/
def gap (comment : Bool) : List Char → List Char
  | [] => []
  | c :: rest =>
    if c = '\n' then gap false rest
    else if c = '\r' ∧ rest.head? = some '\n' then gap false rest
    else if comment then (if isTextChar c then gap true rest else c :: rest)
    else if isSpace c then gap false rest
    else if c = '#' then gap true rest
    else c :: rest

/-- Items up to a closing mark, with commas between them; one more comma may
    follow the last. -/
def listed {α : Type} (item : Reader α) (close : Char) (cs : List Char) : Option (List α × List Char) :=
  match gap false cs with
  | [] => none
  | c :: rest =>
    if c = close then some ([], rest)
    else match item (c :: rest) with
      | none => none
      | some (first, rest) =>
        match gap false rest with
        | [] => none
        | c :: rest =>
          if c = close then some ([first], rest)
          else if c = ',' ∧ rest.length < cs.length then
            (listed item close rest).map fun read => (first :: read.1, read.2)
          else none
termination_by cs.length
decreasing_by simp_all

/-- A key and its value, with an equals sign between them. -/
def pair? (value : Reader Value) (cs : List Char) : Option ((List String × Value) × List Char) := do
  let (key, rest) ← boundedKey? cs
  let (read, rest) ← value ((← after? '=' rest).dropWhile isSpace)
  some ((key, read), rest)

/-- The pairs in braces as one table. -/
def inlineTable? (pairs : List (List String × Value)) : Option Value :=
  (pairs.foldlM (fun table pair => Table.assign pair.2 pair.1 table) []).map (.table .inline)

/-- A character of a value without quotes. -/
def isWordChar (c : Char) : Bool := c ∉ [' ', '\t', '\n', '\r', ',', '=', '#', '[', ']', '\x7b', '\x7d']

/-- The length of a word without quotes. A date and a time are one word. -/
def wordLength (cs : List Char) : Nat :=
  let word := cs.takeWhile isWordChar
  match afterDate? word, cs.drop word.length with
  | some [], ' ' :: next :: rest =>
    if next.isDigit then word.length + 1 + ((next :: rest).takeWhile isWordChar).length else word.length
  | _, _ => word.length

/-- A value whose lists and tables nest at most so deep. -/
def value? : Nat → Reader Value
  | depth, cs =>
    match cs with
    | '[' :: rest =>
      match depth with
      | 0 => none
      | depth + 1 => (listed (value? depth) ']' rest).map fun read => (.array read.1, read.2)
    | '\x7b' :: rest =>
      match depth with
      | 0 => none
      | depth + 1 => do
        let (pairs, rest) ← listed (pair? (value? depth)) '\x7d' rest
        some (← inlineTable? pairs, rest)
    | cs =>
      match cs.head? with
      | some '"' | some '\'' => (string? cs).map fun read => (.string (String.ofList read.1), read.2)
      | _ => (scalar? (cs.take (wordLength cs))).map fun value => (value, cs.drop (wordLength cs))

/-- How deep values may nest. -/
def depthLimit : Nat := 80

/-! ## Statements -/

inductive Statement where
  /-- A key with its value, in the table of the last header. -/
  | pair (key : List String) (value : Value)
  /-- The header of a table. -/
  | header (key : List String)
  /-- The header of one more table under the same key. -/
  | element (key : List String)

def statement? : Reader Statement
  | '[' :: '[' :: rest => do
    let (key, rest) ← boundedKey? rest
    some (.element key, ← after? ']' (← after? ']' rest))
  | '[' :: rest => do
    let (key, rest) ← boundedKey? rest
    some (.header key, ← after? ']' rest)
  | cs => (pair? (value? depthLimit) cs).map fun read => (.pair read.1.1 read.1.2, read.2)

/-- Nothing but spaces and a comment follows on the line. -/
def endsLine (cs : List Char) : Bool :=
  match cs.dropWhile isSpace with
  | [] => true
  | '#' :: _ => true
  | rest => (newline? rest).isSome

/-- All statements of a text, each on lines of its own. -/
def statements? (cs : List Char) : Option (List Statement) :=
  match gap false cs with
  | [] => some []
  | rest =>
    match statement? rest with
    | none => none
    | some (first, rest) =>
      if endsLine rest ∧ rest.length < cs.length then (statements? rest).map (first :: ·) else none
termination_by cs.length
decreasing_by simp_all

end ReleaseStamp.Toml
