/-
Reading a decimal exactly: the double nearest to a fraction, a half going to the even one.
-/
import StaleDocs.Decimal.Binary
import StaleDocs.Decimal.Numeral

namespace StaleDocs.Decimal

/-- The greatest exponent of two at which a positive fraction still fills 53 bits. -/
def binaryExponent (num den : Nat) : Int :=
  let e := (num.log2 : Int) - den.log2 - 53
  if den * Nat.pow 2 (53 + e).toNat ≤ num * Nat.pow 2 (-(53 + e)).toNat then e + 1 else e

/-- The nearest double's bits to a positive fraction: a mantissa at the exponent that leaves it
53 bits, or at the least one. Rounding up to the next power of two carries into the exponent. -/
def nearestBits (num den : Nat) : Nat :=
  let exponent := max (binaryExponent num den) (-1074)
  let mantissa := roundDiv (num * Nat.pow 2 (-exponent).toNat) (den * Nat.pow 2 exponent.toNat)
  (exponent + 1074).toNat * Nat.pow 2 52 + mantissa

/-- The bits from which on a double is infinite. -/
def infiniteBits : Nat := 2047 * Nat.pow 2 52

/-- The double nearest to a fraction, unless that is too large. -/
def nearest? (num den : Nat) : Option Float :=
  if num = 0 then some 0
  else
    let bits := nearestBits num den
    if bits < infiniteBits then some (Float.ofBits (UInt64.ofNat bits)) else none

/-- The absolute value of a numeral as the nearest double. Beyond the decimal exponents of
doubles the number is not spelled out. -/
def Numeral.nearestMagnitude? (n : Numeral) : Option Float :=
  let significant := (n.whole ++ n.fraction).dropWhile (· = '0')
  let digits := ofDigits significant
  let written : Int := ofDigits n.exponent
  let exponent := (if n.exponentNegative then -written else written) - n.fraction.length
  let first := exponent + significant.length
  if digits = 0 || first < -400 then some 0
  else if 400 < first then none
  else nearest? (digits * Nat.pow 10 exponent.toNat) (Nat.pow 10 (-exponent).toNat)

/-- The double nearest to a numeral, unless that is too large. -/
def Numeral.nearest? (n : Numeral) : Option Float :=
  n.nearestMagnitude?.map fun x => if n.negative then -x else x

end StaleDocs.Decimal
