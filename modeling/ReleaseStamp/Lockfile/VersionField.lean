/-!
The version field of a package in the text of a lockfile: the field
`name = "P"`, a separator of one character or CRLF, and `version = "V"`, where
`V` runs to the last quote of its line. The field of a package is the leftmost
one (`locate`); the text around it is opaque.
-/
namespace ReleaseStamp.Lockfile

/-- The name field of a package, quotes included. -/
def nameField (package : List Char) : List Char := "name = \"".toList ++ package ++ ['"']

/-- The version key up to and including the opening quote of its value. -/
def versionKey : List Char := "version = \"".toList

/-- A version field and the text around it. -/
structure VersionField where
  /-- What stands before the name field. -/
  before : List Char
  /-- What stands between the name field and the version key. -/
  separator : List Char
  /-- The value between its quotes. -/
  value : List Char
  /-- What follows the closing quote. -/
  after : List Char
deriving DecidableEq, Repr

/-- The whole text that holds the field. -/
def VersionField.render (package : List Char) (field : VersionField) : List Char :=
  field.before ++ nameField package ++ field.separator ++ versionKey ++ field.value ++ '"' :: field.after

/-- The rest of a text after an opening that it has to start with. -/
def stripPrefix? : List Char → List Char → Option (List Char)
  | [], cs => some cs
  | _ :: _, [] => none
  | p :: ps, c :: cs => if p = c then stripPrefix? ps cs else none

/-- The characters up to the last quote of the line, and what follows that quote. -/
def closeQuote : List Char → Option (List Char × List Char)
  | [] => none
  | c :: cs =>
    if c = '\n' then none
    else match closeQuote cs with
      | some (value, after) => some (c :: value, after)
      | none => if c = '"' then some ([], cs) else none

/-- The version key and its value after a given separator. -/
def valueAfter (separator cs : List Char) : Option VersionField :=
  (stripPrefix? (separator ++ versionKey) cs).bind fun rest =>
    (closeQuote rest).map fun found => ⟨[], separator, found.1, found.2⟩

/-- The field that starts with the first character of the text, after the
    given name field. -/
def fieldHere (name cs : List Char) : Option VersionField :=
  (stripPrefix? name cs).bind fun rest =>
    (valueAfter ['\r', '\n'] rest).or (valueAfter (rest.take 1) rest)

/-- The leftmost field with the given name field. -/
def search (name : List Char) : List Char → Option VersionField
  | [] => none
  | c :: cs =>
    match fieldHere name (c :: cs) with
    | some field => some field
    | none => (search name cs).map fun field => { field with before := c :: field.before }

/-- The leftmost field of the package. -/
def locate (package cs : List Char) : Option VersionField := search (nameField package) cs

/-! ## Reading and stamping a text -/

/-- Names of this many bytes or more are refused: the search pattern made from
    them is too big. -/
def nameLimit : Nat := 327600

/-- Why a text cannot be searched. -/
inductive SearchError where
  /-- The package name reaches `nameLimit`. -/
  | nameTooLong
deriving DecidableEq, Repr

def SearchError.message : SearchError → String
  | .nameTooLong => "Compiled regex exceeds size limit of 10485760 bytes."

/-- A package name that can be searched for. -/
def searchable (package : String) : Bool := package.utf8ByteSize < nameLimit

/-- A text after stamping, and the version that stood there before. -/
structure Stamped where
  text : String
  /-- Nothing if the text holds no field of the package. -/
  previous : Option String
deriving DecidableEq, Repr

/-- Puts the tag in the place of the package's version, as it is. A text
    without a field of the package stays as it was. -/
def stamp (text package tag : String) : Except SearchError Stamped :=
  if searchable package then
    match locate package.toList text.toList with
    | some field =>
      .ok ⟨String.ofList ({ field with value := tag.toList }.render package.toList),
        some (String.ofList field.value)⟩
    | none => .ok ⟨text, none⟩
  else .error .nameTooLong

/-- The version that the text holds for the package. -/
def version? (text package : String) : Except SearchError (Option String) :=
  if searchable package then
    .ok ((locate package.toList text.toList).map fun field => String.ofList field.value)
  else .error .nameTooLong

/-! ## First facts -/

theorem stripPrefix?_eq_some_iff {opening cs rest : List Char} :
    stripPrefix? opening cs = some rest ↔ cs = opening ++ rest := by
  induction opening generalizing cs with
  | nil => simp [stripPrefix?, eq_comm]
  | cons p ps ih =>
    cases cs with
    | nil => simp [stripPrefix?]
    | cons c cs =>
      by_cases same : p = c
      · simp [stripPrefix?, same, ih]
      · simp [stripPrefix?, same, Ne.symm same]

end ReleaseStamp.Lockfile
