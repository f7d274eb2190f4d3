import ReleaseStamp.Text.Lines
import ReleaseStamp.Toml.Value

/-!
The values that stand without quotes: booleans, integers, reals and moments.
Each kind is told from the text alone, and no text is of two kinds.
-/
namespace ReleaseStamp.Toml

/-! ## Digits -/

/-- The value of a digit, letters included. -/
def digitValue (c : Char) : Nat :=
  if c.isDigit then c.toNat - '0'.toNat else c.toLower.toNat - 'a'.toNat + 10

def isHexDigit (c : Char) : Bool := c.isDigit || ('a' ≤ c.toLower && c.toLower ≤ 'f')

def isOctalDigit (c : Char) : Bool := '0' ≤ c && c ≤ '7'

def isBinaryDigit (c : Char) : Bool := c == '0' || c == '1'

/-- The number that digits write in a base. -/
def numberOf (base : Nat) (digits : List Char) : Nat := digits.foldl (fun n c => n * base + digitValue c) 0

/-- The digits of a text. Underscores may stand between two digits. -/
def ungroup? (isDigit : Char → Bool) (cs : List Char) : Option (List Char) :=
  let groups := Text.split '_' cs
  if groups.all fun group => group != [] && group.all isDigit then some groups.flatten else none

/-- Decimal digits without a leading zero. -/
def decimalDigits? (cs : List Char) : Option (List Char) :=
  (ungroup? Char.isDigit cs).filter fun digits => digits.length == 1 || digits.head? != some '0'

/-- A sign, which may be missing, and what follows it. -/
def takeSign : List Char → Bool × List Char
  | '-' :: rest => (true, rest)
  | '+' :: rest => (false, rest)
  | cs => (false, cs)

/-! ## Integers -/

/-- Integers from here on are too big to be told. -/
def integerLimit : Nat := Nat.pow 2 128

def leastInteger : Int := -Int.pow 2 127

/-- An integer: decimal with a sign, or in another base without one. -/
def integer? (cs : List Char) : Option Int :=
  let number := match cs with
    | '0' :: 'x' :: digits => (ungroup? isHexDigit digits).map fun ds => (numberOf 16 ds : Int)
    | '0' :: 'o' :: digits => (ungroup? isOctalDigit digits).map fun ds => (numberOf 8 ds : Int)
    | '0' :: 'b' :: digits => (ungroup? isBinaryDigit digits).map fun ds => (numberOf 2 ds : Int)
    | _ => (decimalDigits? (takeSign cs).2).map fun ds =>
      if (takeSign cs).1 then -(numberOf 10 ds : Int) else numberOf 10 ds
  number.filter fun n => leastInteger ≤ n && n < integerLimit

/-! ## Reals -/

/-- The text up to the first character that is one of two, that it is there,
    and what follows it. -/
def cutAt (one other : Char) (cs : List Char) : List Char × Bool × List Char :=
  let isMark (c : Char) : Bool := c == one || c == other
  match cs.dropWhile (!isMark ·) with
  | [] => (cs, false, [])
  | _ :: rest => (cs.takeWhile (!isMark ·), true, rest)

/-- The exponent of a real, or zero if it has none. -/
def exponent? (given : Bool) (cs : List Char) : Option Int :=
  if given then
    (ungroup? Char.isDigit (takeSign cs).2).map fun ds =>
      if (takeSign cs).1 then -(numberOf 10 ds : Int) else numberOf 10 ds
  else some 0

/-- A real without its sign: digits with a fraction, an exponent or both. -/
def unsignedReal? (negative : Bool) (cs : List Char) : Option Decimal.Binary64 := do
  let (decimal, scaled, power) := cutAt 'e' 'E' cs
  let (whole, pointed, places) := cutAt '.' '.' decimal
  if scaled || pointed then
    let whole ← decimalDigits? whole
    let places ← if pointed then ungroup? Char.isDigit places else some []
    let power ← exponent? scaled power
    let digits := whole ++ places
    match Decimal.Binary64.ofDecimal negative (numberOf 10 digits) digits.length (power - places.length) with
    | .finite sign mantissa exponent => some (.finite sign mantissa exponent)
    | _ => none
  else none

/-- A real. One that leaves the format is none. -/
def real? (cs : List Char) : Option Decimal.Binary64 :=
  let (negative, rest) := takeSign cs
  if rest = "inf".toList then some (.infinite negative)
  else if rest = "nan".toList then some .nan
  else unsignedReal? negative rest

/-! ## Moments -/

/-- As many digits as given, with their number and what follows them. -/
def digits? (count : Nat) (cs : List Char) : Option (Nat × List Char) :=
  let digits := cs.take count
  if digits.length == count && digits.all Char.isDigit then some (numberOf 10 digits, cs.drop count) else none

/-- What follows a given mark. -/
def after? (mark : Char) : List Char → Option (List Char)
  | [] => none
  | c :: rest => if c = mark then some rest else none

def isLeapYear (year : Nat) : Bool := year % 4 == 0 && (year % 100 != 0 || year % 400 == 0)

/-- The days of a month; no month has none. -/
def daysIn (year month : Nat) : Nat :=
  if month = 2 then (if isLeapYear year then 29 else 28)
  else if month ∈ [4, 6, 9, 11] then 30
  else if 1 ≤ month ∧ month ≤ 12 then 31
  else 0

/-- What follows a date. -/
def afterDate? (cs : List Char) : Option (List Char) := do
  let (year, cs) ← digits? 4 cs
  let (month, cs) ← digits? 2 (← after? '-' cs)
  let (day, cs) ← digits? 2 (← after? '-' cs)
  if 1 ≤ day ∧ day ≤ daysIn year month then some cs else none

/-- What follows the seconds of a time, which may be missing. -/
def afterSeconds? (cs : List Char) : Option (List Char) :=
  match after? ':' cs with
  | none => some cs
  | some cs => do
    let (second, cs) ← digits? 2 cs
    if 60 < second then none
    else match after? '.' cs with
      | none => some cs
      | some cs => if cs.takeWhile Char.isDigit = [] then none else some (cs.dropWhile Char.isDigit)

/-- What follows a time of the day. -/
def afterTime? (cs : List Char) : Option (List Char) := do
  let (hour, cs) ← digits? 2 cs
  let (minute, cs) ← digits? 2 (← after? ':' cs)
  if 23 < hour ∨ 59 < minute then none else afterSeconds? cs

/-- The distance of a zone, which may be missing; a day at most. -/
def isZone (cs : List Char) : Bool :=
  match cs with
  | [] | ['Z'] | ['z'] => true
  | sign :: rest =>
    (sign == '+' || sign == '-') && match (do
      let (hours, rest) ← digits? 2 rest
      let (minutes, rest) ← digits? 2 (← after? ':' rest)
      some (hours * 60 + minutes, rest) : Option (Nat × List Char)) with
    | some (minutes, []) => minutes ≤ 24 * 60
    | _ => false

/-- A date, a time, or a date and a time with or without a zone. -/
def isMoment (cs : List Char) : Bool :=
  match afterDate? cs with
  | none => afterTime? cs == some []
  | some [] => true
  | some (between :: rest) =>
    (between == 'T' || between == 't' || between == ' ') &&
      match afterTime? rest with
      | some zone => isZone zone
      | none => false

/-- The value that a text without quotes writes. -/
def scalar? (cs : List Char) : Option Value :=
  if cs = "true".toList then some (.boolean true)
  else if cs = "false".toList then some (.boolean false)
  else match integer? cs with
    | some n => some (.integer n)
    | none =>
      match real? cs with
      | some x => some (.real x)
      | none => if isMoment cs then some .moment else none

end ReleaseStamp.Toml
