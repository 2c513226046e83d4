/-
Literals of Go source, by how many characters of a text they take: integers in four bases,
floating-point and imaginary numbers, characters, and strings in two kinds of quotes.
-/
import StaleDocs.Text.Word

namespace StaleDocs.Go

/-- How many characters of a text a form takes, if the text starts with it. -/
abbrev Extent := List Char → Option Nat

/-- One form, then another. -/
def Extent.andThen (a b : Extent) : Extent := fun cs => do
  let n ← a cs
  let m ← b (cs.drop n)
  return n + m

/-- A form or nothing. -/
def Extent.optional (a : Extent) : Extent := fun cs => some ((a cs).getD 0)

/-- The longest of several forms. -/
def Extent.longest (forms : List Extent) : Extent := fun cs =>
  (forms.filterMap fun form => form cs).max?

/-- One character of a class. -/
def Extent.oneOf (p : Char → Bool) : Extent
  | [] => none
  | c :: _ => if p c then some 1 else none

/-- One given character, in either case. -/
def Extent.letter (lower : Char) : Extent :=
  Extent.oneOf fun c => c.toLower = lower

/-- Digits after the first: a single underscore may stand between two. -/
def moreDigits (p : Char → Bool) : List Char → Nat
  | [] => 0
  | '_' :: c :: cs => if p c then moreDigits p cs + 2 else 0
  | c :: cs => if p c then moreDigits p cs + 1 else 0

/-- One digit or more. -/
def digits (p : Char → Bool) : Extent
  | [] => none
  | c :: cs => if p c then some (moreDigits p cs + 1) else none

/-- An octal digit. -/
def isOctal (c : Char) : Bool := '0' ≤ c && c ≤ '7'

/-- A binary digit. -/
def isBinary (c : Char) : Bool := c = '0' || c = '1'

/-- A hexadecimal digit. -/
def isHex (c : Char) : Bool := (Text.hexValue? c).isSome

/-- Decimal digits. -/
def decimals : Extent := digits Char.isDigit

/-- An underscore or nothing. -/
def underscore : Extent := .optional (.oneOf (· = '_'))

/-- A zero, the letter of a base, and digits in it. -/
def based (base : Char) (p : Char → Bool) : Extent :=
  .andThen (.oneOf (· = '0')) (.andThen (.letter base) (.andThen underscore (digits p)))

/-- An octal number with or without its letter. -/
def octal : Extent :=
  .andThen (.oneOf (· = '0'))
    (.andThen (.optional (.letter 'o')) (.andThen underscore (digits isOctal)))

/-- Zero, or digits that do not start with it. -/
def plainInteger : Extent :=
  .longest [.oneOf (· = '0'),
    .andThen (.oneOf fun c => '1' ≤ c && c ≤ '9')
      (.optional (.andThen underscore decimals))]

/-- An integer. -/
def integer : Extent :=
  .longest [based 'b' isBinary, plainInteger, octal, based 'x' isHex]

/-- An exponent after the given letter. -/
def exponent (mark : Char) : Extent :=
  .andThen (.letter mark) (.andThen (.optional (.oneOf fun c => c = '+' || c = '-')) decimals)

/-- A point. -/
def point : Extent := .oneOf (· = '.')

/-- A floating-point number in decimal digits: a point, an exponent, or both. -/
def decimalFloat : Extent :=
  .longest [
    .andThen decimals (.andThen point (.andThen (.optional decimals) (.optional (exponent 'e')))),
    .andThen decimals (exponent 'e'),
    .andThen point (.andThen decimals (.optional (exponent 'e')))]

/-- A floating-point number in hexadecimal digits, with its exponent. -/
def hexFloat : Extent :=
  .andThen (.oneOf (· = '0')) (.andThen (.letter 'x') (.andThen
    (.longest [
      .andThen underscore (.andThen (digits isHex) (.andThen point (.optional (digits isHex)))),
      .andThen underscore (digits isHex),
      .andThen point (digits isHex)])
    (exponent 'p')))

/-- An imaginary number. -/
def imaginary : Extent :=
  .andThen (.longest [decimals, integer, decimalFloat, hexFloat]) (.oneOf (· = 'i'))

/-- A number of any kind, as long as possible. -/
def number : Extent := .longest [integer, decimalFloat, hexFloat, imaginary]

/-- `n` digits of a class. -/
def exactly (n : Nat) (p : Char → Bool) : Extent := fun cs =>
  if (cs.take n).length = n && (cs.take n).all p then some n else none

/-- An escape by a code: its letter and some digits. -/
def codeEscape (letter : Char) (n : Nat) : Extent :=
  .andThen (.oneOf (· = letter)) (exactly n isHex)

/-- An escape in a string, after its backslash: a code, or any other character. -/
def stringEscape : Extent
  | 'x' :: cs => codeEscape 'x' 2 ('x' :: cs)
  | 'u' :: cs => codeEscape 'u' 4 ('u' :: cs)
  | 'U' :: cs => codeEscape 'U' 8 ('U' :: cs)
  | _ :: _ => some 1
  | [] => none

/-- The rest of a string in double quotes, of which `n` characters were passed, in at most
`fuel` steps. A raw line end cannot stand in it. -/
def interpretedFrom (n : Nat) : (fuel : Nat) → Extent
  | 0, _ => none
  | _ + 1, [] => none
  | fuel + 1, c :: cs =>
    if c = '"' then some (n + 1)
    else if c = '\n' then none
    else if c = '\\' then
      match stringEscape cs with
      | some m => interpretedFrom (n + 1 + m) fuel (cs.drop m)
      | none => none
    else interpretedFrom (n + 1) fuel cs

/-- The rest of a string in backquotes, of which `n` characters were passed. -/
def rawFrom (n : Nat) : Extent
  | [] => none
  | c :: cs => if c = '\x60' then some (n + 1) else rawFrom (n + 1) cs

/-- A string. -/
def string : Extent
  | '"' :: cs => interpretedFrom 1 (cs.length + 1) cs
  | '\x60' :: cs => rawFrom 1 cs
  | _ => none

/-- An escape in a character literal, after its backslash. -/
def runeEscape : Extent :=
  .longest [codeEscape 'x' 2, exactly 3 isOctal, codeEscape 'u' 4, codeEscape 'U' 8,
    .oneOf fun c => "abfnrtv\\'\"".toList.contains c]

/-- A character literal. -/
def rune : Extent
  | '\'' :: '\\' :: cs => do
    let n ← runeEscape cs
    if cs[n]? = some '\'' then return n + 3 else none
  | '\'' :: c :: '\'' :: _ => if c = '\'' then none else some 3
  | _ => none

end StaleDocs.Go
