import ReleaseStamp.Toml.Scalar

/-!
The texts in quotes of a TOML document: with escapes or without, on one line
or on several. Each reader takes what follows the opening quotes, and answers
with the text and with what follows the closing quotes.
-/
namespace ReleaseStamp.Toml

/-- A reader takes a construct from the front of a text. -/
abbrev Reader (α : Type) := List Char → Option (α × List Char)

def isSpace (c : Char) : Bool := c == ' ' || c == '\t'

/-- A character that may stand in a comment, or in quotes on one line. -/
def isTextChar (c : Char) : Bool := c == '\t' || (0x20 ≤ c.toNat && c.toNat != 0x7F)

/-- What follows the end of a line, if the text starts with one. -/
def newline? : List Char → Option (List Char)
  | '\n' :: rest => some rest
  | '\r' :: '\n' :: rest => some rest
  | _ => none

/-- The text without the spaces and the ends of lines before it. -/
def skipBlank : List Char → List Char
  | ' ' :: rest => skipBlank rest
  | '\t' :: rest => skipBlank rest
  | '\n' :: rest => skipBlank rest
  | '\r' :: '\n' :: rest => skipBlank rest
  | cs => cs

/-- What follows a backslash that joins lines. -/
def joined? (cs : List Char) : Option (List Char) :=
  (newline? (cs.dropWhile isSpace)).map skipBlank

/-! ## Escapes -/

/-- The character that a letter after a backslash stands for. -/
def letterEscape? (c : Char) : Option Char :=
  match c with
  | 'b' => some '\x08'
  | 't' => some '\t'
  | 'n' => some '\n'
  | 'f' => some '\x0c'
  | 'r' => some '\r'
  | 'e' => some '\x1b'
  | '"' => some '"'
  | '\\' => some '\\'
  | _ => none

/-- How many hexadecimal digits follow a letter after a backslash. -/
def escapeLength? (c : Char) : Option Nat :=
  match c with
  | 'x' => some 2
  | 'u' => some 4
  | 'U' => some 8
  | _ => none

/-- The character with the number that exactly so many digits write. -/
def numbered? (count : Nat) (cs : List Char) : Option Char :=
  let digits := cs.take count
  if digits.length == count && digits.all isHexDigit && (numberOf 16 digits).isValidChar then
    some (Char.ofNat (numberOf 16 digits))
  else none

/-- An escape, without its backslash. -/
def escape? : Reader Char
  | [] => none
  | c :: rest =>
    match letterEscape? c, escapeLength? c with
    | some meant, _ => some (meant, rest)
    | none, some count => (numbered? count rest).map fun meant => (meant, rest.drop count)
    | none, none => none

theorem length_of_escape? {cs rest : List Char} {c : Char} (read : escape? cs = some (c, rest)) :
    rest.length < cs.length := by
  cases cs with
  | nil => simp [escape?] at read
  | cons d tail =>
    simp only [escape?] at read
    split at read
    · simp only [Option.some.injEq, Prod.mk.injEq] at read
      simp [← read.2]
    · simp only [Option.map_eq_some_iff, Prod.mk.injEq] at read
      obtain ⟨_, _, _, rfl⟩ := read
      simp only [List.length_drop, List.length_cons]
      omega
    · contradiction

theorem length_skipBlank (cs : List Char) : (skipBlank cs).length ≤ cs.length := by
  fun_induction skipBlank cs <;> simp_all <;> omega

theorem length_of_newline? {cs rest : List Char} (read : newline? cs = some rest) : rest.length < cs.length := by
  unfold newline? at read
  split at read
  · simp_all
  · simp only [Option.some.injEq] at read
    subst read
    simp only [List.length_cons]
    omega
  · contradiction

theorem length_of_joined? {cs rest : List Char} (read : joined? cs = some rest) : rest.length < cs.length := by
  simp only [joined?, Option.map_eq_some_iff] at read
  obtain ⟨next, found, rfl⟩ := read
  have := length_of_newline? found
  have := length_skipBlank next
  have := (List.dropWhile_sublist isSpace (l := cs)).length_le
  omega

/-! ## On one line -/

/-- The rest of a text in single quotes. -/
def literal : Reader (List Char)
  | [] => none
  | c :: rest =>
    if c = '\'' then some ([], rest)
    else if isTextChar c then (literal rest).map fun read => (c :: read.1, read.2)
    else none

/-- The rest of a text in double quotes. -/
def basic (cs : List Char) : Option (List Char × List Char) :=
  match cs with
  | [] => none
  | c :: rest =>
    if c = '"' then some ([], rest)
    else if c = '\\' then
      match escaped : escape? rest with
      | some (meant, after) =>
        have := length_of_escape? escaped
        (basic after).map fun read => (meant :: read.1, read.2)
      | none => none
    else if isTextChar c then (basic rest).map fun read => (c :: read.1, read.2)
    else none
termination_by cs.length
decreasing_by all_goals simp_wf <;> omega

/-! ## On several lines -/

/-- The end of a text that closes with three equal quotes: up to two more of
    them before the closing ones belong to the text. -/
def closing? (quote : Char) : Reader (List Char)
  | a :: b :: c :: rest =>
    if a = quote ∧ b = quote ∧ c = quote then
      let extra := (rest.take 2).takeWhile (· == quote)
      some (extra, rest.drop extra.length)
    else none
  | _ => none

/-- A character that may stand in a text on several lines; a carriage return
    only before a line feed. -/
def isLongChar (c : Char) (rest : List Char) : Bool :=
  isTextChar c || c == '\n' || (c == '\r' && rest.head? == some '\n')

/-- The rest of a text in three single quotes. -/
def longLiteral : Reader (List Char)
  | [] => none
  | c :: rest =>
    match closing? '\'' (c :: rest) with
    | some found => some found
    | none =>
      if isLongChar c rest then (longLiteral rest).map fun read => (c :: read.1, read.2) else none

/-- The rest of a text in three double quotes. -/
def longBasic (cs : List Char) : Option (List Char × List Char) :=
  match cs with
  | [] => none
  | c :: rest =>
    match closing? '"' (c :: rest) with
    | some found => some found
    | none =>
      if c = '\\' then
        match broken : joined? rest with
        | some after =>
          have := length_of_joined? broken
          longBasic after
        | none =>
          match escaped : escape? rest with
          | some (meant, after) =>
            have := length_of_escape? escaped
            (longBasic after).map fun read => (meant :: read.1, read.2)
          | none => none
      else if isLongChar c rest then (longBasic rest).map fun read => (c :: read.1, read.2)
      else none
termination_by cs.length
decreasing_by all_goals simp_wf <;> omega

/-- The text without the end of a line right after its opening quotes. -/
def opened (cs : List Char) : List Char := (newline? cs).getD cs

/-- A text in quotes on one line. -/
def shortString? : Reader (List Char)
  | '"' :: rest => basic rest
  | '\'' :: rest => literal rest
  | _ => none

/-- A text in quotes of any kind. -/
def string? : Reader (List Char)
  | '"' :: '"' :: '"' :: rest => longBasic (opened rest)
  | '\'' :: '\'' :: '\'' :: rest => longLiteral (opened rest)
  | cs => shortString? cs

end ReleaseStamp.Toml
