import ReleaseStamp.Git.Digest

/-!
The objects that hold staged bytes. An object goes by the digest of its bytes,
with a header before them, and lies compressed in a file of that name. The
bytes are compressed in the simplest way: they are copied, block by block.
-/
namespace ReleaseStamp.Git.ObjectFile

/-- The object of a file's bytes. -/
def object (data : List UInt8) : List UInt8 :=
  ("blob " ++ toString data.length).toUTF8.toList ++ 0 :: data

/-- The name that the object of a file's bytes goes by. -/
def name (data : List UInt8) : Vector UInt8 20 := Digest.of (object data)

def hexDigit (n : Nat) : Char := "0123456789abcdef".toList.getD n '0'

def hex (bytes : List UInt8) : String :=
  String.ofList (bytes.flatMap fun b => [hexDigit (b.toNat / 16), hexDigit (b.toNat % 16)])

/-- The path of an object below the directory of objects. -/
def path (name : Vector UInt8 20) : List String :=
  let digits := (hex name.toList).toList
  [String.ofList (digits.take 2), String.ofList (digits.drop 2)]

/-! ## Compression -/

/-- The bytes that a block can hold. -/
def blockSize : Nat := 65535

/-- A block: whether it is the last one, its length in two forms with the small
    part first, and its bytes. -/
def block (last : Bool) (data : List UInt8) : List UInt8 :=
  (if last then 1 else 0) :: (bytesOf 2 data.length).reverse ++ (bytesOf 2 (65535 - data.length)).reverse ++ data

/-- The bytes in so many full blocks and a last one. -/
def blocks : Nat → List UInt8 → List UInt8
  | 0, data => block true data
  | count + 1, data => block false (data.take blockSize) ++ blocks count (data.drop blockSize)

/-- The sum that seals compressed bytes. -/
def sum (data : List UInt8) : Nat :=
  let (a, b) := data.foldl (fun (a, b) byte => ((a + byte.toNat) % 65521, (b + a + byte.toNat) % 65521)) (1, 0)
  b * 65536 + a

/-- The bytes in the form that object files have. -/
def compress (data : List UInt8) : List UInt8 :=
  [0x78, 0x01] ++ blocks (data.length / blockSize) data ++ bytesOf 4 (sum data)

end ReleaseStamp.Git.ObjectFile
