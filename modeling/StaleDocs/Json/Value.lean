/-
JSON values. A number keeps its spelling, an object the order and repetition of its members.
A string may escape half of a surrogate pair alone: such a string is well formed but denotes
no text, and is kept apart.
-/
import StaleDocs.Decimal.Numeral

namespace StaleDocs.Json
open Decimal (Numeral)

/-- A JSON value; `none` stands for a string or member name that denotes no text. -/
inductive Value where
  | null
  | bool (b : Bool)
  | number (n : Numeral)
  | string (s : Option String)
  | array (items : List Value)
  | object (members : List (Option String × Value))
deriving Inhabited

/-- A natural number as a numeral. -/
def Value.ofNat (n : Nat) : Value :=
  .number ⟨false, Nat.toDigits 10 n, [], false, []⟩

/-- A text as a value. -/
def Value.text (s : String) : Value :=
  .string (some s)

/-- An object with the given members. -/
def Value.record (members : List (String × Value)) : Value :=
  .object (members.map fun (name, v) => (some name, v))

end StaleDocs.Json
