/-
Numerals as they stand in a text, and the numbers they denote: natural numbers and integers of
64 bits, exactly, and doubles by scaling the significand.

The significand of a double is built in 64 bits. Digits of the whole part that no longer fit
count as powers of ten; digits of the fraction that no longer fit are dropped. The significand,
rounded to a double, is then multiplied or divided by a power of ten, in one step where that
power is a double.
-/
namespace StaleDocs.Decimal

/-- An optional minus sign, digits, a fraction (empty if there is none), and the sign and
digits of an exponent (no digits if there is none). -/
structure Numeral where
  negative : Bool
  whole : List Char
  fraction : List Char
  exponentNegative : Bool
  exponent : List Char
deriving DecidableEq

/-- The greatest significand. -/
def maxSignificand : Nat := 0xffffffffffffffff

/-- The value of a digit. -/
def digitValue (c : Char) : Nat := c.toNat - 48

/-- The number that a list of digits writes. -/
def ofDigits (ds : List Char) : Nat :=
  ds.foldl (fun n c => 10 * n + digitValue c) 0

/-- Whether a numeral has neither fraction nor exponent. -/
def Numeral.isWhole (n : Numeral) : Bool :=
  n.fraction.isEmpty && n.exponent.isEmpty

/-- The natural number of 64 bits that a numeral writes. -/
def Numeral.toNat? (n : Numeral) : Option Nat :=
  let value := ofDigits n.whole
  if !n.negative && n.isWhole && value ≤ maxSignificand then some value else none

/-- The absolute value of the least signed number of 64 bits. -/
def minIntMagnitude : Nat := 0x8000000000000000

/-- The signed number of 64 bits that a numeral writes; minus zero is none. -/
def Numeral.toInt? (n : Numeral) : Option Int :=
  let value := ofDigits n.whole
  if !n.isWhole then none
  else if n.negative then (if 0 < value && value ≤ minIntMagnitude then some (-(value : Int))
    else none)
  else if value < minIntMagnitude then some value else none

/-- Appends digits while the significand fits: the significand and the digits left over. -/
def accumulate (significand : Nat) : List Char → Nat × List Char
  | [] => (significand, [])
  | c :: cs =>
    let next := 10 * significand + digitValue c
    if next ≤ maxSignificand then accumulate next cs else (significand, c :: cs)

/-- `f` divided by ten to the power `places`, by at most `10 ^ 308` at a time. -/
def divideByPower (f : Float) (places : Nat) : Float :=
  if places ≤ 308 then f / Float.ofScientific 1 false places
  else if f == 0 then f
  else divideByPower (f / Float.ofScientific 1 false 308) (places - 308)
termination_by places

/-- `significand · 10 ^ exponent`, unless that is too large. -/
def scale? (significand : Nat) (exponent : Int) : Option Float :=
  let f := Float.ofNat significand
  if exponent < 0 then some (divideByPower f exponent.natAbs)
  else if 308 < exponent then (if significand = 0 then some f else none)
  else
    let product := f * Float.ofScientific 1 false exponent.toNat
    if product.isInf then none else some product

/-- The greatest exponent that is spelled out. -/
def maxExponent : Nat := 0x7fffffff

/-- The absolute value of a numeral as a double. -/
def Numeral.magnitude? (n : Numeral) : Option Float :=
  let (whole, dropped) := accumulate 0 n.whole
  let (significand, unused) := accumulate whole n.fraction
  let shift : Int := dropped.length - (n.fraction.length - unused.length : Nat)
  let exponent := ofDigits n.exponent
  if maxExponent < exponent then
    if significand ≠ 0 && !n.exponentNegative then none else some 0
  else scale? significand (if n.exponentNegative then shift - exponent else shift + exponent)

/-- The double that a numeral writes. -/
def Numeral.toFloat? (n : Numeral) : Option Float :=
  n.magnitude?.map fun x => if n.negative then -x else x

end StaleDocs.Decimal
