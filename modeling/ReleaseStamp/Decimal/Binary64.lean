/-!
Numbers in the binary64 format, and the one that is nearest to a decimal. All
of it is arithmetic on natural numbers.
-/
namespace ReleaseStamp.Decimal

inductive Binary64 where
  | nan
  | infinite (negative : Bool)
  /-- The number `mantissa * 2 ^ exponent` with its sign. -/
  | finite (negative : Bool) (mantissa : Nat) (exponent : Int)
deriving DecidableEq, Repr

namespace Binary64

def minExponent : Int := -1074

def maxExponent : Int := 971

/-- Mantissas from here up have all their bits. -/
def hiddenBit : Nat := Nat.pow 2 52

/-- The quotient to the nearest, a half to the even neighbour. -/
def roundDiv (num den : Nat) : Nat :=
  if 2 * (num % den) < den then num / den
  else if den < 2 * (num % den) then num / den + 1
  else num / den + num / den % 2

structure Ratio where
  num : Nat
  den : Nat

/-- The fraction times a power of the base. -/
def Ratio.scale (r : Ratio) (base : Nat) (power : Int) : Ratio :=
  if 0 ≤ power then ⟨r.num * base.pow power.toNat, r.den⟩ else ⟨r.num, r.den * base.pow (-power).toNat⟩

/-- The exponent that gives the mantissa of a positive fraction 53 bits, or the
    least one. -/
def exponentOf (r : Ratio) : Int :=
  let guess := (r.num.log2 : Int) - r.den.log2 - 52
  let scaled := r.scale 2 (-guess)
  max minExponent (if scaled.num < hiddenBit * scaled.den then guess - 1 else guess)

/-- The nearest number to a positive fraction. -/
def ofRatio (negative : Bool) (r : Ratio) : Binary64 :=
  let exponent := exponentOf r
  let scaled := r.scale 2 (-exponent)
  let mantissa := roundDiv scaled.num scaled.den
  let carried := mantissa = 2 * hiddenBit
  let exponent := if carried then exponent + 1 else exponent
  if maxExponent < exponent then .infinite negative
  else .finite negative (if carried then hiddenBit else mantissa) exponent

/-- Decimal exponents beyond this one, up or down, leave the format. -/
def decimalReach : Int := 400

/-- The nearest number to `digits * 10 ^ power`, where `digits` has the given
    count of decimal digits. -/
def ofDecimal (negative : Bool) (digits count : Nat) (power : Int) : Binary64 :=
  if digits = 0 ∨ power + count < -decimalReach then .finite negative 0 minExponent
  else if decimalReach < power then .infinite negative
  else ofRatio negative (Ratio.scale ⟨digits, 1⟩ 10 power)

end Binary64

end ReleaseStamp.Decimal
