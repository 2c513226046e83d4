/-
Records as JSON: objects of their fields, or arrays of them in order. Null is a value like any
other, and no default.
-/
import StaleDocs.Json.Printer
import StaleDocs.Record.Basic

namespace StaleDocs.Json

/-- How a value of type `α` is read. -/
abbrev Read (α : Type) := Value → Option α

/-- A text. -/
def readText : Read String
  | .string s => s
  | _ => none

/-- A truth value. -/
def readBool : Read Bool
  | .bool b => some b
  | _ => none

/-- A natural number of 64 bits. -/
def readNat : Read Nat
  | .number n => n.toNat?
  | _ => none

/-- An integer of 64 bits. -/
def readInt : Read Int
  | .number n => n.toInt?
  | _ => none

/-- A finite double. -/
def readFloat : Read Float
  | .number n => n.toFloat?
  | _ => none

/-- A list of values of one kind. -/
def readList {α : Type} (read : Read α) : Read (List α)
  | .array items => items.mapM read
  | _ => none

/-- The values of a record's fields, in the order of their names. -/
def fields? (names : List String) : Value → Option (List (Option Value))
  | .object members => Record.collect names members
  | .array items => Record.byPosition? names items
  | _ => none

/-- The word of a value, which may also be the name of a single member that is null. -/
def readAnyWord : Read String
  | .string s => s
  | .object [(s, .null)] => s
  | _ => none

/-- One of several words. -/
def readWord {α : Type} (words : List (String × α)) (v : Value) : Option α :=
  (readAnyWord v).bind fun s => words.lookup s

/-- The items of an array. -/
def readItems : Read (List Value)
  | .array items => some items
  | _ => none

/-- How JSON is read. -/
def reader : Record.Reader Value where
  fields? := fields?
  text? := readText
  bool? := readBool
  nat? := readNat
  float? := readFloat
  items? := readItems
  word? := readAnyWord

mutual

/-- The content of a record as JSON. -/
def Value.ofContent : Record.Content → Value
  | .text s => .text s
  | .bool b => .bool b
  | .nat n => .ofNat n
  | .float x => .ofFloat x
  | .texts items => .array (items.map .text)
  | .record fields => .object (membersOf fields)

/-- The fields of a record as members. -/
def membersOf : List (String × Record.Content) → List (Option String × Value)
  | [] => []
  | (name, c) :: fs => (some name, .ofContent c) :: membersOf fs

end

/-- A list of values as JSON. -/
def writeList {α : Type} (write : α → Value) (xs : List α) : Value :=
  .array (xs.map write)

end StaleDocs.Json
