/-!
Numbers as bytes, the largest part first, and the digest that names an object
and seals an index (SHA-1).
-/
namespace ReleaseStamp.Git

/-! ## Numbers as bytes -/

/-- The bytes of a number that fits in as many. -/
def bytesOf : Nat → Nat → List UInt8
  | 0, _ => []
  | count + 1, n => bytesOf count (n / 256) ++ [UInt8.ofNat n]

def numberOf (bytes : List UInt8) : Nat := bytes.foldl (fun n b => n * 256 + b.toNat) 0

/-! ## The digest -/

namespace Digest

/-- The state after some of the blocks. -/
structure State where
  a : UInt32
  b : UInt32
  c : UInt32
  d : UInt32
  e : UInt32

def start : State := ⟨0x67452301, 0xEFCDAB89, 0x98BADCFE, 0x10325476, 0xC3D2E1F0⟩

def rotate (word count : UInt32) : UInt32 := word <<< count ||| word >>> (32 - count)

/-- The word behind the given ones, the last of which comes first. -/
def nextWord (words : List UInt32) : UInt32 :=
  let at_ (i : Nat) := words.getD i 0
  rotate (at_ 2 ^^^ at_ 7 ^^^ at_ 13 ^^^ at_ 15) 1

/-- The words of a block, and those that follow from them. -/
def schedule (block : List UInt32) : List UInt32 :=
  ((List.range 64).foldl (fun words _ => nextWord words :: words) block.reverse).reverse

/-- One step of a block, with its number. -/
def step (s : State) (numbered : UInt32 × Nat) : State :=
  let (word, i) := numbered
  let (mixed, constant) : UInt32 × UInt32 :=
    if i < 20 then ((s.b &&& s.c) ||| (~~~s.b &&& s.d), 0x5A827999)
    else if i < 40 then (s.b ^^^ s.c ^^^ s.d, 0x6ED9EBA1)
    else if i < 60 then ((s.b &&& s.c) ||| (s.b &&& s.d) ||| (s.c &&& s.d), 0x8F1BBCDC)
    else (s.b ^^^ s.c ^^^ s.d, 0xCA62C1D6)
  ⟨rotate s.a 5 + mixed + s.e + constant + word, s.a, rotate s.b 30, s.c, s.d⟩

/-- The state after one more block. -/
def compress (s : State) (block : List UInt32) : State :=
  let s' := (schedule block).zipIdx.foldl step s
  ⟨s.a + s'.a, s.b + s'.b, s.c + s'.c, s.d + s'.d, s.e + s'.e⟩

def words : List UInt8 → List UInt32
  | a :: b :: c :: d :: rest => UInt32.ofNat (numberOf [a, b, c, d]) :: words rest
  | _ => []

/-- As many blocks as are told, of sixteen words each. -/
def blocks : Nat → List UInt32 → List (List UInt32)
  | 0, _ => []
  | count + 1, words => words.take 16 :: blocks count (words.drop 16)

/-- The bytes with what fills the last block: a mark, zeros, and the length in bits. -/
def padded (data : List UInt8) : List UInt8 :=
  data ++ 0x80 :: List.replicate ((119 - data.length % 64) % 64) 0 ++ bytesOf 8 (data.length * 8)

def of (data : List UInt8) : Vector UInt8 20 :=
  let whole := padded data
  let s := (blocks (whole.length / 64) (words whole)).foldl compress start
  Vector.ofFn fun i => (([s.a, s.b, s.c, s.d, s.e].getD (i / 4) 0) >>> UInt32.ofNat (24 - i % 4 * 8)).toUInt8

end Digest

end ReleaseStamp.Git
