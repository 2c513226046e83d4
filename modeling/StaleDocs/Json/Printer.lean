/-
Writing JSON, on one line or with two spaces for each level. Characters above ASCII stand for
themselves; an empty array or object stays on its line.
-/
import StaleDocs.Decimal.Layout
import StaleDocs.Json.Value

namespace StaleDocs.Json

/-- Positional from `10 ^ -5` to below `10 ^ 16`, exponents with their sign. -/
def numberLayout : Decimal.Layout := ⟨-5, 15, ['+'], "null", "null"⟩

/-- A hexadecimal digit, in lower case. -/
def hexDigit (n : Nat) : Char :=
  Nat.digitChar n

/-- A character as it is written inside a string. -/
def escapeChar (c : Char) : List Char :=
  match c with
  | '"' => ['\\', '"']
  | '\\' => ['\\', '\\']
  | '\n' => ['\\', 'n']
  | '\r' => ['\\', 'r']
  | '\t' => ['\\', 't']
  | '\x08' => ['\\', 'b']
  | '\x0c' => ['\\', 'f']
  | c =>
    if c.toNat < 0x20 then
      ['\\', 'u', '0', '0', hexDigit (c.toNat / 16), hexDigit (c.toNat % 16)]
    else [c]

/-- A text in quotes. -/
def quoted (s : String) : List Char :=
  '"' :: s.toList.flatMap escapeChar ++ ['"']

/-- A string that denotes no text is written as one replacement character. -/
def stringText (s : Option String) : List Char :=
  quoted (s.getD "\ufffd")

mutual

/-- A value on one line. -/
def Value.compact : Value → List Char
  | .null => "null".toList
  | .bool b => (if b then "true" else "false").toList
  | .number n => n.text numberLayout.plus
  | .string s => stringText s
  | .array items => '[' :: compactItems items ++ [']']
  | .object members => '{' :: compactMembers members ++ ['}']

/-- Items on one line, with commas between. -/
def compactItems : List Value → List Char
  | [] => []
  | [v] => v.compact
  | v :: vs => v.compact ++ ',' :: compactItems vs

/-- Members on one line, with commas between. -/
def compactMembers : List (Option String × Value) → List Char
  | [] => []
  | [(name, v)] => stringText name ++ ':' :: v.compact
  | (name, v) :: ms => stringText name ++ ':' :: v.compact ++ ',' :: compactMembers ms

end

/-- A line end and the indentation of a level. -/
def freshLine (level : Nat) : List Char :=
  '\n' :: List.replicate (2 * level) ' '

mutual

/-- A value over several lines, of which the later ones are indented by `level`. -/
def Value.prettyAt (level : Nat) : Value → List Char
  | .null => "null".toList
  | .bool b => (if b then "true" else "false").toList
  | .number n => n.text numberLayout.plus
  | .string s => stringText s
  | .array [] => ['[', ']']
  | .array (v :: vs) => '[' :: prettyItems (level + 1) (v :: vs) ++ freshLine level ++ [']']
  | .object [] => ['{', '}']
  | .object (m :: ms) => '{' :: prettyMembers (level + 1) (m :: ms) ++ freshLine level ++ ['}']

/-- Items on lines of their own. -/
def prettyItems (level : Nat) : List Value → List Char
  | [] => []
  | [v] => freshLine level ++ v.prettyAt level
  | v :: vs => freshLine level ++ v.prettyAt level ++ ',' :: prettyItems level vs

/-- Members on lines of their own. -/
def prettyMembers (level : Nat) : List (Option String × Value) → List Char
  | [] => []
  | [(name, v)] => freshLine level ++ stringText name ++ ':' :: ' ' :: v.prettyAt level
  | (name, v) :: ms =>
    freshLine level ++ stringText name ++ ':' :: ' ' :: v.prettyAt level ++
      ',' :: prettyMembers level ms

end

/-- The text of a value on one line. -/
def Value.render (v : Value) : String :=
  String.ofList v.compact

/-- The text of a value over several lines. -/
def Value.pretty (v : Value) : String :=
  String.ofList (v.prettyAt 0)

/-- A double as a value; one that is not finite is null. -/
def Value.ofFloat (x : Float) : Value :=
  match Decimal.Binary.ofFloat? x with
  | some b => .number (numberLayout.numeral b.negative b.shortest)
  | none => .null

end StaleDocs.Json
