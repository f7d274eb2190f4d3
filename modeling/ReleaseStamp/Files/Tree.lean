import ReleaseStamp.Files.Path

/-!
A file tree: the directories, files and symbolic links below the root, found by
location. Every operation is told by what `get?` finds after it.
-/
namespace ReleaseStamp

-- The equality test of core, also where other libraries bring their own.
local instance decidableEqBytes : DecidableEq ByteArray := ByteArray.instDecidableEq

/-- What an index records of a file. -/
inductive Blob where
  /-- The bytes that were staged. -/
  | bytes (data : ByteArray)
  /-- The name of an object whose bytes lie elsewhere, with the mode and the
      flags that the index holds for it. -/
  | object (name : Vector UInt8 20) (mode : UInt32) (flags furtherFlags : UInt16)
deriving DecidableEq

/-- A file as an index records it. -/
structure StagedEntry where
  /-- The path below the work tree, with slashes between the names. -/
  path : String
  executable : Bool
  object : Blob
deriving DecidableEq

/-- The bytes that were staged, unless only their name is known. -/
def StagedEntry.blob (entry : StagedEntry) : ByteArray :=
  match entry.object with
  | .bytes data => data
  | .object .. => .empty

inductive Content where
  | bytes (data : ByteArray)
  /-- A file that git reads as an index: its entries, in the order of their paths. -/
  | index (entries : List StagedEntry)
deriving DecidableEq

namespace Content

def ofText (text : String) : Content := .bytes text.toUTF8

/-- The signature at the start of every index. -/
def signature : List UInt8 := [0x44, 0x49, 0x52, 0x43]

/-- The bytes of the file. Of an index only the head is told apart: its
    signature, its version, and a byte that no text holds. -/
def raw : Content → ByteArray
  | .bytes data => data
  | .index _ => ⟨(signature ++ [0, 0, 0, 2, 0xFF]).toArray⟩

/-- The text that the bytes encode. -/
def text? (content : Content) : Option String := String.fromUTF8? content.raw

theorem text?_ofText (text : String) : (ofText text).text? = some text := dif_pos text.isValidUTF8

end Content

/-- What may lie at a location. -/
inductive Node where
  | directory
  | file (mode : Nat) (content : Content)
  | link (target : Path)
deriving DecidableEq

/-- The nodes below the root, each with its location. -/
structure FileTree where
  nodes : List (Location × Node)

namespace FileTree

def empty : FileTree := ⟨[]⟩

/-- What lies at the location. The root is always a directory. -/
def get? (t : FileTree) (loc : Location) : Option Node :=
  if loc = [] then some .directory else t.nodes.lookup loc

/-- The tree with the node at the location, in the place of what was there. -/
def put (t : FileTree) (loc : Location) (node : Node) : FileTree :=
  ⟨(loc, node) :: t.nodes.filter (·.1 ≠ loc)⟩

/-- The tree without what lies at the location. -/
def erase (t : FileTree) (loc : Location) : FileTree := ⟨t.nodes.filter (·.1 ≠ loc)⟩

/-- The tree without the location and all below it. -/
def eraseBelow (t : FileTree) (loc : Location) : FileTree := ⟨t.nodes.filter (!loc.isPrefixOf ·.1)⟩

def locations (t : FileTree) : List Location := t.nodes.map (·.1)

private theorem lookup_filter_ne (nodes : List (Location × Node)) {loc other : Location} (ne : other ≠ loc) :
    (nodes.filter (·.1 ≠ loc)).lookup other = nodes.lookup other := by
  induction nodes with
  | nil => rfl
  | cons head tail ih =>
    obtain ⟨at_, node⟩ := head
    by_cases same : at_ = loc
    · subst same
      have : (other == at_) = false := by simpa using ne
      simp [List.lookup_cons, this]
      simpa using ih
    · by_cases here : other = at_
      · subst here; simp [same]
      · have : (other == at_) = false := by simpa using here
        simp [List.lookup_cons, same, this]
        simpa using ih

private theorem lookup_filter_self (nodes : List (Location × Node)) (loc : Location) :
    (nodes.filter (·.1 ≠ loc)).lookup loc = none := by
  rw [List.lookup_eq_none_iff]
  intro pair member
  simp only [ne_eq, decide_not, List.mem_filter, Bool.not_eq_eq_eq_not, Bool.not_true,
    decide_eq_false_iff_not] at member
  simpa using fun same => member.2 same.symm

@[simp] theorem get?_root (t : FileTree) : t.get? [] = some .directory := rfl

theorem get?_put_self (t : FileTree) {loc : Location} (node : Node) (below : loc ≠ []) :
    (t.put loc node).get? loc = some node := by
  simp [get?, put, below]

theorem get?_put_of_ne (t : FileTree) {loc other : Location} (node : Node) (ne : other ≠ loc) :
    (t.put loc node).get? other = t.get? other := by
  unfold get? put
  have : (other == loc) = false := by simpa using ne
  simp only [List.lookup_cons, this]
  rw [lookup_filter_ne _ ne]

theorem get?_erase_self (t : FileTree) {loc : Location} (below : loc ≠ []) : (t.erase loc).get? loc = none := by
  unfold get? erase
  rw [if_neg below, lookup_filter_self]

theorem get?_erase_of_ne (t : FileTree) {loc other : Location} (ne : other ≠ loc) :
    (t.erase loc).get? other = t.get? other := by
  unfold get? erase
  rw [lookup_filter_ne _ ne]

end FileTree

end ReleaseStamp
