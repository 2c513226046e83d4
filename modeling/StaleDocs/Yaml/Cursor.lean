/-
A place in a text: what is left of it, and the index, line and column reached.
-/
import StaleDocs.Yaml.Character

namespace StaleDocs.Yaml

/-- A place in a text; index, line and column count from zero. -/
structure Cursor where
  rest : List Char
  index : Nat
  line : Nat
  column : Nat

/-- The place after one more character. -/
def Cursor.next (c : Cursor) : Cursor :=
  match c.rest with
  | [] => c
  | x :: xs =>
    if isBreak x then ⟨xs, c.index + 1, c.line + 1, 0⟩
    else ⟨xs, c.index + 1, c.line, c.column + 1⟩

/-- The place after `n` more characters. -/
def Cursor.skip (c : Cursor) : (n : Nat) → Cursor
  | 0 => c
  | n + 1 => c.next.skip n

/-- The characters that `p` holds of up to the first one that it does not, and the place there. -/
def Cursor.span (c : Cursor) (p : Char → Bool) : List Char × Cursor :=
  let found := c.rest.takeWhile p
  (found, c.skip found.length)

/-- The place of the first character that `p` does not hold of. -/
def Cursor.past (c : Cursor) (p : Char → Bool) : Cursor := (c.span p).2

/-- Whether the text goes on with a character. -/
def Cursor.sees (c : Cursor) (x : Char) : Bool :=
  c.rest.head? = some x

/-- Whether a line is at its end, or the text. -/
def Cursor.atLineEnd (c : Cursor) : Bool :=
  match c.rest with
  | [] => true
  | x :: _ => isBreak x

/-- Whether there is a blank, the end of a line, or that of the text. -/
def Cursor.atSpace (c : Cursor) : Bool := startsBlank c.rest

/-- Whether a line starts with a mark of three characters that stands alone. -/
def Cursor.atMark (c : Cursor) (mark : List Char) : Bool :=
  c.column = 0 && mark.isPrefixOf c.rest && startsBlank (c.rest.drop mark.length)

/-- The mark before a document. -/
def startMark : List Char := ['-', '-', '-']

/-- The mark after a document. -/
def endMark : List Char := ['.', '.', '.']

/-- Whether a line starts with a mark between documents. -/
def Cursor.atDocumentMark (c : Cursor) : Bool :=
  c.atMark startMark || c.atMark endMark

/-- The place of the next line or of the text's end, after blanks and a comment; nothing if
something else is in between. -/
def Cursor.endOfLine? (c : Cursor) : Option Cursor :=
  let c := c.past isBlank
  let c := if c.sees '#' then c.past fun x => !isBreak x else c
  if c.atLineEnd then some c.next else none

end StaleDocs.Yaml
