/-
Character classes of patterns (word characters and decimal digits of any script) and numbers
written with ASCII digits.
-/
import StaleDocs.Text.Edges
import StaleDocs.Text.WordTable
namespace StaleDocs.Text

/-- A letter, mark, decimal digit, connector or join control. -/
def isWord (c : Char) : Bool :=
  if c.toNat < 128 then c.isAlphanum || c = '_' else withinEdges wordEdges c.toNat

/-- A decimal digit of any script. -/
def isDecimal (c : Char) : Bool :=
  if c.toNat < 128 then c.isDigit else withinEdges digitEdges c.toNat

/-- The value of a hexadecimal digit. -/
def hexValue? (c : Char) : Option Nat :=
  if c.isDigit then some (c.toNat - 48)
  else if 'a' ≤ c && c ≤ 'f' then some (c.toNat - 87)
  else if 'A' ≤ c && c ≤ 'F' then some (c.toNat - 55)
  else none

/-- The largest number a line number or count may reach. -/
def maxWord : Nat := 0xffffffffffffffff

/-- Continues reading a number at most `limit` from ASCII digits. -/
def readNatFrom (limit value : Nat) : List Char → Option Nat
  | [] => some value
  | c :: cs =>
    if c.isDigit then
      let next := 10 * value + (c.toNat - 48)
      if next ≤ limit then readNatFrom limit next cs else none
    else none

/-- The number written by ASCII digits, if it is at most `limit`. -/
def readNat? (limit : Nat) : List Char → Option Nat
  | [] => none
  | cs => readNatFrom limit 0 cs

end StaleDocs.Text
