/-
What plain scalars stand for: nothing, truth values, integers and doubles. The words are taken
in three spellings each. Integers may be written in base two, eight and sixteen; digits that
start with a needless zero are no number.
-/
import StaleDocs.Decimal.Nearest
import StaleDocs.Json.Token

namespace StaleDocs.Yaml
open Decimal (Numeral)
open Text (hexValue?)

/-- Words for the absence of a value. -/
def isNull (s : String) : Bool :=
  ["null", "Null", "NULL", "~"].contains s

/-- A truth value. -/
def bool? (s : String) : Option Bool :=
  if ["true", "True", "TRUE"].contains s then some true
  else if ["false", "False", "FALSE"].contains s then some false
  else none

/-- Digits with a sign or without that start with a needless zero. -/
def hasNeedlessZero (cs : List Char) : Bool :=
  let digits := match cs with
    | '+' :: ds => ds
    | '-' :: ds => ds
    | ds => ds
  1 < digits.length && digits.head? = some '0' && digits.all Char.isDigit

/-- The number that one or more digits write in a base. -/
def ofBase? (base : Nat) (digits : List Char) : Option Nat :=
  if digits.isEmpty then none
  else
    digits.foldlM (fun n c => do
      let d ← hexValue? c
      if d < base then return base * n + d else none) 0

/-- The absolute value of an integer without its sign. -/
def magnitude? : List Char → Option Nat
  | '0' :: 'x' :: digits => ofBase? 16 digits
  | '0' :: 'o' :: digits => ofBase? 8 digits
  | '0' :: 'b' :: digits => ofBase? 2 digits
  | digits => if hasNeedlessZero digits then none else ofBase? 10 digits

/-- An integer. -/
def int? (s : String) : Option Int :=
  match s.toList with
  | '-' :: cs => (magnitude? cs).map fun n => -(n : Int)
  | '+' :: cs => (magnitude? cs).map fun n => n
  | cs => (magnitude? cs).map fun n => n

/-- A natural number of 64 bits; even minus zero is none. -/
def nat? (s : String) : Option Nat :=
  if s.toList.head? = some '-' then none
  else
    match int? s with
    | some n => if n ≤ Decimal.maxSignificand then some n.toNat else none
    | none => none

/-- A decimal numeral without its sign: digits before the point or after it, and an exponent. -/
def numeral? (negative : Bool) (cs : List Char) : Option Numeral := do
  let (whole, cs) := Json.spanDigits cs
  let (fraction, cs) := match cs with
    | '.' :: cs => Json.spanDigits cs
    | cs => ([], cs)
  if whole.isEmpty && fraction.isEmpty then none
  else
    match ← Json.scanExponent cs with
    | (exponentNegative, exponent, []) =>
      return ⟨negative, whole, fraction, exponentNegative, exponent⟩
    | _ => none

/-- The words for an infinite number. -/
def isInfinity (s : String) : Bool :=
  [".inf", ".Inf", ".INF"].contains s

/-- The words for what is not a number. -/
def isNotANumber (s : String) : Bool :=
  [".nan", ".NaN", ".NAN"].contains s

/-- The nearest double to a number with a sign or without. -/
def finite? (cs : List Char) : Option Float := do
  let n ← match cs with
    | '-' :: ds => numeral? true ds
    | '+' :: ds => numeral? false ds
    | ds => numeral? false ds
  n.nearest?

/-- A double. One that is too large is none. -/
def float? (s : String) : Option Float :=
  if isInfinity s || (s.toList.head? = some '+' && isInfinity (String.ofList s.toList.tail)) then
    some (1.0 / 0.0)
  else if s.toList.head? = some '-' && isInfinity (String.ofList s.toList.tail) then
    some (-1.0 / 0.0)
  else if isNotANumber s then some (0.0 / 0.0)
  else finite? s.toList

/-- Whether an integer has at most 128 bits, with a sign or without. -/
def fits128 (n : Int) : Bool :=
  if n < 0 then n.natAbs ≤ Nat.pow 2 127 else n.natAbs < Nat.pow 2 128

/-- Whether a plain scalar with this text would be no text, or looks like a number. -/
def isAmbiguous (s : String) : Bool :=
  s.isEmpty || isNull s || (bool? s).isSome || (int? s).any fits128 || (float? s).isSome ||
    hasNeedlessZero s.toList

end StaleDocs.Yaml
