/-
Reading a JSON value from its tokens. The values under construction are kept on a stack, one
frame for each open bracket, so values of any depth are read by one pass over the tokens.
-/
import StaleDocs.Json.Token

namespace StaleDocs.Json

/-- An open bracket: the items before the current one, last first, and in an object the name
of the current member. -/
inductive Frame where
  | array (items : List Value)
  | object (members : List (Option String × Value)) (name : Option String)

/-- What may come next. -/
inductive Expected where
  /-- A value. -/
  | value
  /-- A value, or the end of the array just opened. -/
  | firstItem
  /-- A member name, or the end of the object just opened. -/
  | firstName
  /-- A member name after a comma. -/
  | name (members : List (Option String × Value))
  /-- The colon after a member name. -/
  | colon (members : List (Option String × Value)) (name : Option String)
  /-- A comma or the end of the innermost bracket, after this value. -/
  | after (v : Value)

/-- A reading in progress. -/
structure Reading where
  frames : List Frame
  expected : Expected

/-- Takes one token; `none` if it cannot stand here. -/
def Reading.step (r : Reading) (t : Token) : Option Reading :=
  match r.expected, t, r.frames with
  | .value, .atom v, fs => some ⟨fs, .after v⟩
  | .value, .openArray, fs => some ⟨fs, .firstItem⟩
  | .value, .openObject, fs => some ⟨fs, .firstName⟩
  | .firstItem, .closeArray, fs => some ⟨fs, .after (.array [])⟩
  | .firstItem, .atom v, fs => some ⟨.array [] :: fs, .after v⟩
  | .firstItem, .openArray, fs => some ⟨.array [] :: fs, .firstItem⟩
  | .firstItem, .openObject, fs => some ⟨.array [] :: fs, .firstName⟩
  | .firstName, .closeObject, fs => some ⟨fs, .after (.object [])⟩
  | .firstName, .atom (.string name), fs => some ⟨fs, .colon [] name⟩
  | .name members, .atom (.string name), fs => some ⟨fs, .colon members name⟩
  | .colon members name, .colon, fs => some ⟨.object members name :: fs, .value⟩
  | .after v, .comma, .array items :: fs => some ⟨.array (v :: items) :: fs, .value⟩
  | .after v, .closeArray, .array items :: fs => some ⟨fs, .after (.array (v :: items).reverse)⟩
  | .after v, .comma, .object members name :: fs => some ⟨fs, .name ((name, v) :: members)⟩
  | .after v, .closeObject, .object members name :: fs =>
    some ⟨fs, .after (.object ((name, v) :: members).reverse)⟩
  | _, _, _ => none

/-- The value that a sequence of tokens writes. -/
def Value.ofTokens? (ts : List Token) : Option Value :=
  match ts.foldlM Reading.step ⟨[], .value⟩ with
  | some ⟨[], .after v⟩ => some v
  | _ => none

/-- The value that a text writes, with white space around it but nothing else. -/
def Value.parse? (s : String) : Option Value := do
  Value.ofTokens? (← Token.ofText? s.toList)

end StaleDocs.Json
