import ReleaseStamp.Decimal.Binary64

/-!
The shortest decimal that reads back as a given binary64 number, and its
positional text. Of two shortest decimals the nearer one is taken, of two that
are as near the greater one.
-/
namespace ReleaseStamp.Decimal.Binary64

/-- What reads back as `mantissa * 2 ^ exponent`: the decimals between two
    bounds, in units of `2 ^ (exponent - 2)`. -/
structure Interval where
  low : Nat
  high : Nat
  /-- The bounds themselves read back too. -/
  closed : Bool

/-- The interval of a positive mantissa. Below a power of two the neighbours
    are half as far. -/
def intervalOf (mantissa : Nat) (exponent : Int) : Interval :=
  let below := if mantissa = hiddenBit ∧ minExponent < exponent then 1 else 2
  ⟨4 * mantissa - below, 4 * mantissa + 2, mantissa % 2 = 0⟩

def Interval.contains (i : Interval) (x unit : Nat) : Bool :=
  if i.closed then i.low * unit ≤ x && x ≤ i.high * unit else i.low * unit < x && x < i.high * unit

/-- The decimal `n * 10 ^ power` that reads back and is the nearest of its grid. -/
def onGrid? (mantissa : Nat) (exponent : Int) (power : Int) : Option (Nat × Int) :=
  let value := (Ratio.scale ⟨4 * mantissa, 1⟩ 2 (exponent - 2)).scale 10 (-power)
  let unit := ((Ratio.scale ⟨1, 1⟩ 2 (exponent - 2)).scale 10 (-power)).num
  let below := value.num / value.den
  let inside (n : Nat) := (intervalOf mantissa exponent).contains (n * value.den) unit
  let nearer := if 2 * (value.num % value.den) < value.den then [below, below + 1] else [below + 1, below]
  (nearer.find? inside).map fun n => (n, power)

/-- Grids that are tried, from the coarsest: seventeen digits always suffice. -/
def gridCount : Nat := 22

/-- The shortest decimal for a positive mantissa. -/
def shortest (mantissa : Nat) (exponent : Int) : Nat × Int :=
  let coarsest := ((mantissa.log2 : Int) + exponent) * 30103 / 100000 + 2
  ((List.range gridCount).findSome? fun step => onGrid? mantissa exponent (coarsest - (step : Nat))).getD (0, 0)

/-- The text of `n * 10 ^ power` without an exponent, with one decimal at least. -/
def positional (n : Nat) (power : Int) : List Char :=
  let digits := Nat.toDigits 10 n
  if 0 ≤ power then digits ++ List.replicate power.toNat '0' ++ ['.', '0']
  else
    let places := (-power).toNat
    let padded := List.replicate (places + 1 - digits.length) '0' ++ digits
    padded.take (padded.length - places) ++ '.' :: padded.drop (padded.length - places)

/-- The text of a number: shortest digits, never an exponent. -/
def text : Binary64 → List Char
  | .nan => "NaN".toList
  | .infinite negative => (if negative then ['-'] else []) ++ "inf".toList
  | .finite negative mantissa exponent =>
    (if negative then ['-'] else []) ++
      if mantissa = 0 then "0.0".toList
      else positional (shortest mantissa exponent).1 (shortest mantissa exponent).2

end ReleaseStamp.Decimal.Binary64
