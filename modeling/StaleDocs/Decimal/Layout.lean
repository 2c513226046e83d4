/-
Writing a double with its shortest digits. A layout says which decimal exponents are written
positionally, always with a point, and how the exponent of the others is marked.
-/
import StaleDocs.Decimal.Numeral
import StaleDocs.Decimal.Shortest

namespace StaleDocs.Decimal

/-- The choices a format makes in writing numbers. -/
structure Layout where
  /-- The least exponent of a first digit that is written positionally. -/
  leastPlain : Int
  /-- The greatest such exponent. -/
  greatestPlain : Int
  /-- What stands before an exponent that is not negative. -/
  plus : List Char
  notANumber : String
  infinity : String

/-- Digits with the point after the first `whole` of them, filled up with zeros. -/
def positional (negative : Bool) (digits : List Char) (whole : Int) : Numeral :=
  if whole ≤ 0 then ⟨negative, ['0'], List.replicate (-whole).toNat '0' ++ digits, false, []⟩
  else if digits.length ≤ whole.toNat then
    ⟨negative, digits ++ List.replicate (whole.toNat - digits.length) '0', ['0'], false, []⟩
  else ⟨negative, digits.take whole.toNat, digits.drop whole.toNat, false, []⟩

/-- Digits with the point after the first one, and the exponent of that one. -/
def scientific (negative : Bool) (digits : List Char) (exponent : Int) : Numeral :=
  ⟨negative, digits.take 1, digits.drop 1, exponent < 0, Nat.toDigits 10 exponent.natAbs⟩

/-- A decimal as a numeral. -/
def Layout.numeral (layout : Layout) (negative : Bool) (d : Scaled) : Numeral :=
  let digits := Nat.toDigits 10 d.digits
  let first := d.exponent + digits.length - 1
  if layout.leastPlain ≤ first && first ≤ layout.greatestPlain then
    positional negative digits (first + 1)
  else scientific negative digits first

/-- The spelling of a numeral, with `plus` before an exponent that is not negative. -/
def Numeral.text (plus : List Char) (n : Numeral) : List Char :=
  (if n.negative then ['-'] else []) ++ n.whole ++
    (if n.fraction.isEmpty then [] else '.' :: n.fraction) ++
    (if n.exponent.isEmpty then []
      else 'e' :: (if n.exponentNegative then ['-'] else plus) ++ n.exponent)

/-- The text of a double. -/
def Layout.write (layout : Layout) (x : Float) : String :=
  match Binary.ofFloat? x with
  | some b => String.ofList ((layout.numeral b.negative b.shortest).text layout.plus)
  | none => if x.isNaN then layout.notANumber else if x < 0 then "-" ++ layout.infinity
    else layout.infinity

/-- A double rounded to a whole number, a half to the even neighbour, as text. -/
def writeWhole (x : Float) : String :=
  match Binary.ofFloat? x with
  | some b =>
    let digits := toString (roundDiv b.fraction.1 b.fraction.2)
    if b.negative then "-" ++ digits else digits
  | none => if x.isNaN then "NaN" else if x < 0 then "-inf" else "inf"

end StaleDocs.Decimal
