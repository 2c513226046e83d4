/-
The shortest decimal that reads back as a given double. The doubles around a value leave it an
interval of reals that round to it; for one digit, two digits and so on, the two neighbours of
the value on the grid of decimals with that many digits are tried, and the first grid with a
neighbour inside the interval gives the answer: the nearer one if both are, the even one if
they are equally near. Seventeen digits always suffice.
-/
import StaleDocs.Decimal.Binary

namespace StaleDocs.Decimal

/-- The number `digits · 10 ^ exponent`. -/
structure Scaled where
  digits : Nat
  exponent : Int
deriving DecidableEq

/-- A positive value and the ends of its rounding interval, all over one denominator. -/
structure Interval where
  low : Nat
  value : Nat
  high : Nat
  den : Nat
  /-- Whether the ends themselves round to the value. -/
  closed : Bool

/-- The rounding interval of a positive double. -/
def Binary.interval (b : Binary) : Interval :=
  let up := Nat.pow 2 b.exponent.toNat
  { low := (4 * b.mantissa - (if b.narrowBelow then 1 else 2)) * up
    value := 4 * b.mantissa * up
    high := (4 * b.mantissa + 2) * up
    den := 4 * Nat.pow 2 (-b.exponent).toNat
    closed := b.mantissa % 2 = 0 }

/-- How many decimal digits a number has. -/
def digitCount (n : Nat) : Nat :=
  (Nat.toDigits 10 n).length

/-- The decimal exponent of the first digit of `num / den`. -/
def leadingExponent (num den : Nat) : Int :=
  let e := (digitCount num : Int) - digitCount den
  if den * Nat.pow 10 e.toNat ≤ num * Nat.pow 10 (-e).toNat then e else e - 1

/-- Whether `digits · 10 ^ exponent` lies in the interval. -/
def Interval.holds (i : Interval) (digits : Nat) (exponent : Int) : Bool :=
  let x := digits * Nat.pow 10 exponent.toNat * i.den
  let scale := Nat.pow 10 (-exponent).toNat
  if i.closed then i.low * scale ≤ x && x ≤ i.high * scale
  else i.low * scale < x && x < i.high * scale

/-- The best decimal with exponent `exponent` in the interval. -/
def Interval.onGrid? (i : Interval) (exponent : Int) : Option Scaled :=
  let num := i.value * Nat.pow 10 (-exponent).toNat
  let den := i.den * Nat.pow 10 exponent.toNat
  let down := num / den
  match i.holds down exponent, i.holds (down + 1) exponent with
  | true, true => some ⟨roundDiv num den, exponent⟩
  | true, false => some ⟨down, exponent⟩
  | false, true => some ⟨down + 1, exponent⟩
  | false, false => none

/-- Tries grids of ever more digits, down to that of `exponent - steps`. -/
def Interval.search (i : Interval) (exponent : Int) : (steps : Nat) → Scaled
  | 0 =>
    let num := i.value * Nat.pow 10 (-exponent).toNat
    ⟨roundDiv num (i.den * Nat.pow 10 exponent.toNat), exponent⟩
  | steps + 1 =>
    match i.onGrid? exponent with
    | some d => d
    | none => i.search (exponent - 1) steps

/-- The decimal without trailing zero digits, of which at most `fuel` are taken off. -/
def Scaled.stripFrom (d : Scaled) : (fuel : Nat) → Scaled
  | 0 => d
  | fuel + 1 =>
    if d.digits % 10 = 0 && d.digits ≠ 0 then
      Scaled.stripFrom ⟨d.digits / 10, d.exponent + 1⟩ fuel
    else d

/-- The shortest decimal that reads back as the absolute value of a finite double. -/
def Binary.shortest (b : Binary) : Scaled :=
  if b.mantissa = 0 then ⟨0, 0⟩
  else
    let i := b.interval
    (i.search (leadingExponent i.value i.den) 17).stripFrom 17

end StaleDocs.Decimal
