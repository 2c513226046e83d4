/-
JSON text as tokens: brackets, separators, literals, numbers and strings. White space between
tokens is the four characters of the format; a raw control character in a string is refused.
-/
import StaleDocs.Json.Value
import StaleDocs.Text.Word

namespace StaleDocs.Json
open Decimal (Numeral)
open Text (hexValue?)

/-- A token of JSON text. -/
inductive Token where
  | openArray
  | closeArray
  | openObject
  | closeObject
  | comma
  | colon
  | atom (v : Value)

/-- White space between tokens. -/
def isSpace (c : Char) : Bool :=
  c = ' ' || c = '\t' || c = '\n' || c = '\r'

/-- The sixteen-bit unit written by four hexadecimal digits. -/
def hexUnit? (a b c d : Char) : Option Nat := do
  return 4096 * (← hexValue? a) + 256 * (← hexValue? b) + 16 * (← hexValue? c) + (← hexValue? d)

/-- The character that a short escape stands for. -/
def shortEscape? (c : Char) : Option Char :=
  match c with
  | '"' => some '"'
  | '\\' => some '\\'
  | '/' => some '/'
  | 'b' => some '\x08'
  | 'f' => some '\x0c'
  | 'n' => some '\n'
  | 'r' => some '\r'
  | 't' => some '\t'
  | _ => none

/-- A unit of a string: a character, or half of a surrogate pair. -/
inductive StringUnit where
  | char (c : Char)
  | high (n : Nat)
  | low (n : Nat)

/-- The unit that a `\u` escape denotes. -/
def StringUnit.ofCode (n : Nat) : StringUnit :=
  if 0xd800 ≤ n && n < 0xdc00 then .high n
  else if 0xdc00 ≤ n && n < 0xe000 then .low n
  else .char (Char.ofNat n)

/-- The units of a string up to its closing quote, onto those in `out`, last first, and the
text after the quote. -/
def scanString (out : List StringUnit) : List Char → Option (List StringUnit × List Char)
  | [] => none
  | '"' :: cs => some (out.reverse, cs)
  | '\\' :: 'u' :: a :: b :: c :: d :: cs =>
    match hexUnit? a b c d with
    | some n => scanString (.ofCode n :: out) cs
    | none => none
  | '\\' :: c :: cs =>
    match shortEscape? c with
    | some e => scanString (.char e :: out) cs
    | none => none
  | c :: cs => if c.toNat < 0x20 || c = '\\' then none else scanString (.char c :: out) cs

/-- The characters of a string onto those in `out`, last first, if every half of a surrogate
pair has its other half next to it. -/
def pairUnits (out : List Char) : List StringUnit → Option (List Char)
  | [] => some out.reverse
  | .char c :: us => pairUnits (c :: out) us
  | .high h :: .low l :: us =>
    pairUnits (Char.ofNat (0x10000 + 0x400 * (h - 0xd800) + (l - 0xdc00)) :: out) us
  | .high _ :: _ => none
  | .low _ :: _ => none

/-- The digits a text starts with, and the rest. -/
def spanDigits (cs : List Char) : List Char × List Char :=
  (cs.takeWhile Char.isDigit, cs.dropWhile Char.isDigit)

/-- The fraction after a whole part; no point means no fraction. -/
def scanFraction : List Char → Option (List Char × List Char)
  | '.' :: cs =>
    match spanDigits cs with
    | ([], _) => none
    | found => some found
  | cs => some ([], cs)

/-- The sign and digits of an exponent; no mark means no digits. -/
def scanExponent : List Char → Option (Bool × List Char × List Char)
  | c :: cs =>
    if c = 'e' || c = 'E' then
      let (negative, cs) := match cs with
        | '+' :: cs => (false, cs)
        | '-' :: cs => (true, cs)
        | cs => (false, cs)
      match spanDigits cs with
      | ([], _) => none
      | (digits, rest) => some (negative, digits, rest)
    else some (false, [], c :: cs)
  | [] => some (false, [], [])

/-- A numeral and the text after it; a whole part of several digits has no leading zero. -/
def scanNumeral (cs : List Char) : Option (Numeral × List Char) := do
  let (negative, cs) := match cs with
    | '-' :: cs => (true, cs)
    | cs => (false, cs)
  let (whole, cs) ← match spanDigits cs with
    | ([], _) => none
    | ('0' :: _ :: _, _) => none
    | found => some found
  let (fraction, cs) ← scanFraction cs
  let (exponentNegative, exponent, cs) ← scanExponent cs
  return (⟨negative, whole, fraction, exponentNegative, exponent⟩, cs)

/-- The token that a text without white space before it starts with, and the rest. -/
def scanToken (c : Char) (cs : List Char) : Option (Token × List Char) :=
  match c, cs with
  | '[', cs => some (.openArray, cs)
  | ']', cs => some (.closeArray, cs)
  | '{', cs => some (.openObject, cs)
  | '}', cs => some (.closeObject, cs)
  | ',', cs => some (.comma, cs)
  | ':', cs => some (.colon, cs)
  | 'n', 'u' :: 'l' :: 'l' :: cs => some (.atom .null, cs)
  | 't', 'r' :: 'u' :: 'e' :: cs => some (.atom (.bool true), cs)
  | 'f', 'a' :: 'l' :: 's' :: 'e' :: cs => some (.atom (.bool false), cs)
  | '"', cs => do
    let (units, rest) ← scanString [] cs
    return (.atom (.string ((pairUnits [] units).map String.ofList)), rest)
  | c, cs => do
    let (n, rest) ← scanNumeral (c :: cs)
    return (.atom (.number n), rest)

/-- The tokens of a text onto those in `out`, last first, in at most `fuel` steps. -/
def scanFrom (out : List Token) : (fuel : Nat) → List Char → Option (List Token)
  | 0, cs => if cs.isEmpty then some out.reverse else none
  | _ + 1, [] => some out.reverse
  | fuel + 1, c :: cs =>
    if isSpace c then scanFrom out fuel cs
    else
      match scanToken c cs with
      | some (t, rest) => scanFrom (t :: out) fuel rest
      | none => none

/-- The tokens of a text. -/
def Token.ofText? (cs : List Char) : Option (List Token) :=
  scanFrom [] cs.length cs

end StaleDocs.Json
