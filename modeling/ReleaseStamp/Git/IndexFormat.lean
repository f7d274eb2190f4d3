import ReleaseStamp.Git.Index
import ReleaseStamp.Git.ObjectFile

/-!
The bytes of an index file. Times and sizes of the entries are left out of a
file that is written, so that git looks at the files themselves again. Three
versions of the format can be read; extensions that git may do without are
skipped.
-/
namespace ReleaseStamp.Git.IndexFormat

/-- An entry as the file has it. -/
structure Record where
  mode : UInt32
  name : Vector UInt8 20
  flags : UInt16
  furtherFlags : UInt16
  path : List UInt8
deriving DecidableEq

/-- More flags follow. -/
def isExtended (flags : UInt16) : Bool := flags &&& 0x4000 ≠ 0

namespace Record

/-- What is left out of an entry: two times and two numbers of the file, ... -/
def leftOutBefore : Nat := 24

/-- ... and behind the mode two owners and the size. -/
def leftOutBehind : Nat := 12

/-- The zeros behind a path: at least one, and as many as fill eight bytes. -/
def padding (flags : UInt16) (path : List UInt8) : Nat :=
  8 - (62 + (if isExtended flags then 2 else 0) + path.length) % 8

def bytes (r : Record) : List UInt8 :=
  List.replicate leftOutBefore 0 ++ (bytesOf 4 r.mode.toNat ++ (List.replicate leftOutBehind 0 ++ (r.name.toList ++
    (bytesOf 2 r.flags.toNat ++ ((if isExtended r.flags then bytesOf 2 r.furtherFlags.toNat else []) ++
      (r.path ++ List.replicate (padding r.flags r.path) 0))))))

end Record

/-! ## Writing -/

/-- The version of the format that can hold the entries. -/
def versionFor (records : List Record) : Nat := if records.any fun r => isExtended r.flags then 3 else 2

/-- All but the seal of a file. -/
def unsealed (records : List Record) : List UInt8 :=
  Content.signature ++ (bytesOf 4 (versionFor records) ++ (bytesOf 4 records.length ++ records.flatMap Record.bytes))

def encode (records : List Record) : List UInt8 := unsealed records ++ (Digest.of (unsealed records)).toList

/-! ## Reading -/

/-- Takes its bytes from the front of a list. -/
abbrev Reader (α : Type) := StateT (List UInt8) Option α

def take (count : Nat) : Reader (List UInt8) := fun data =>
  if count ≤ data.length then some (data.take count, data.drop count) else none

def number (count : Nat) : Reader Nat := do return numberOf (← take count)

def word : Reader UInt32 := do return UInt32.ofNat (← number 4)

def halfWord : Reader UInt16 := do return UInt16.ofNat (← number 2)

def vector (count : Nat) : Reader (Vector UInt8 count) := fun data =>
  if enough : count ≤ data.length then some (⟨(data.take count).toArray, by simp [enough]⟩, data.drop count) else none

/-- The bytes up to the first zero, which is taken, too. -/
def upToZero : Reader (List UInt8) := fun data =>
  match data.dropWhile (· ≠ 0) with
  | [] => none
  | _ :: rest => some (data.takeWhile (· ≠ 0), rest)

/-- A number whose bytes each tell whether another one follows. -/
def lengthFrom (n : Nat) : List UInt8 → Option (Nat × List UInt8)
  | [] => none
  | b :: rest =>
    if b < 128 then some (n * 128 + b.toNat, rest) else lengthFrom (n * 128 + (b.toNat - 128) + 1) rest

/-- The flags that an entry has besides. -/
def furtherFlags (flags : UInt16) : Reader UInt16 := if isExtended flags then halfWord else pure 0

/-- The rest of an entry: its path, which the last version tells by how it
    differs from the path before. -/
def pathAfter (version : Nat) (flags : UInt16) (previous : List UInt8) : Reader (List UInt8) :=
  if version = 4 then do
    let cut ← (lengthFrom 0 : Reader Nat)
    guard (cut ≤ previous.length)
    return previous.take (previous.length - cut) ++ (← upToZero)
  else do
    let path ← upToZero
    let _ ← take (Record.padding flags path - 1)
    return path

def record (version : Nat) (previous : List UInt8) : Reader Record := do
  let _ ← take Record.leftOutBefore
  let mode ← word
  let _ ← take Record.leftOutBehind
  let name ← vector 20
  let flags ← halfWord
  let further ← furtherFlags flags
  let path ← pathAfter version flags previous
  return ⟨mode, name, flags, further, path⟩

/-- So many entries, behind one with a path. -/
def records (version : Nat) : Nat → List UInt8 → Reader (List Record)
  | 0, _ => pure []
  | count + 1, previous => do
    let r ← record version previous
    return r :: (← records version count r.path)

/-- Extensions that may be skipped, up to the end; each takes one of the steps. -/
def extensions : Nat → Reader Unit
  | 0 => fun data => if data = [] then some ((), []) else none
  | steps + 1 => fun data =>
    if data = [] then some ((), [])
    else (do
      let name ← take 4
      let _ ← take (← number 4)
      guard (name.head?.any fun c => 65 ≤ c && c ≤ 90)
      extensions steps : Reader Unit) data

def allRecords : Reader (List Record) := do
  let signature ← take 4
  guard (signature = Content.signature)
  let version ← number 4
  guard (version ∈ [2, 3, 4])
  let count ← number 4
  records version count []

/-- The length of the seal. -/
def sealSize : Nat := 20

/-- Bytes that may stand behind an index: its digest, or zeros in its place. -/
def Seals (last front : List UInt8) : Prop := last = (Digest.of front).toList ∨ last = List.replicate sealSize 0

instance (last front : List UInt8) : Decidable (Seals last front) := inferInstanceAs (Decidable (_ ∨ _))

/-- The entries in the bytes of an index. -/
def decode (data : List UInt8) : Option (List Record) :=
  let (front, last) := data.splitAt (data.length - sealSize)
  match allRecords front with
  | some (found, behind) => if (extensions behind.length behind).isSome ∧ Seals last front then some found else none
  | none => none

/-! ## Entries -/

/-- The flags of an entry that is new: the length of its path, as far as it fits. -/
def newFlags (path : List UInt8) : UInt16 := UInt16.ofNat (min path.length 0xFFF)

def Record.ofEntry (entry : StagedEntry) : Record :=
  let path := entry.path.toUTF8.data.toList
  match entry.object with
  | .bytes data =>
    ⟨if entry.executable then 0o100755 else 0o100644, ObjectFile.name data.data.toList, newFlags path, 0, path⟩
  | .object name mode flags furtherFlags => ⟨mode, name, flags, furtherFlags, path⟩

/-- The entry that a record tells, if its path is a text. -/
def Record.staged? (r : Record) : Option StagedEntry :=
  (String.fromUTF8? ⟨r.path.toArray⟩).map fun path =>
    ⟨path, isExecutable r.mode.toNat, .object r.name r.mode r.flags r.furtherFlags⟩

/-- The bytes of a file that holds an index. -/
def ofIndex (index : Index) : ByteArray := ⟨(encode (index.map Record.ofEntry)).toArray⟩

/-- What a file with these bytes is: an index, if git reads it as one. -/
def content (data : ByteArray) : Content :=
  match (decode data.data.toList).bind (·.mapM Record.staged?) with
  | some index => .index index
  | none => .bytes data

end ReleaseStamp.Git.IndexFormat
