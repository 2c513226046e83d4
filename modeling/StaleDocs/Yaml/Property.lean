/-
What stands before a node or a document and is no content: anchors and aliases, tags, and
directives.
-/
import StaleDocs.Decimal.Numeral
import StaleDocs.Text.Utf8
import StaleDocs.Text.Word
import StaleDocs.Yaml.Cursor
import StaleDocs.Yaml.Token

namespace StaleDocs.Yaml
open Text (hexValue?)

/-- The name of an anchor or alias after its sign. -/
def scanAnchor (c : Cursor) : Option (String × Cursor) :=
  let (name, c) := c.span isNameChar
  let ends := c.atSpace ||
    c.rest.head?.any fun x => ['?', ':', ',', ']', '}', '%', '@', '\x60'].contains x
  if name.isEmpty || !ends then none else some (String.ofList name, c)

/-- The characters of a tag, those that are only allowed in angle brackets among them. -/
def isTagChar (verbatim : Bool) (c : Char) : Bool :=
  isNameChar c || ";/?:@&=+$.!~*'()".toList.contains c ||
    (verbatim && [',', '[', ']'].contains c)

/-- A byte written as a percent sign and two hexadecimal digits. -/
def percentByte? : List Char → Option (Nat × List Char)
  | '%' :: a :: b :: cs => do return (16 * (← hexValue? a) + (← hexValue? b), cs)
  | _ => none

/-- How many bytes a character has that starts with this one. -/
def byteCount? (first : Nat) : Option Nat :=
  if first < 0x80 then some 1
  else if first / 0x20 = 6 then some 2
  else if first / 0x10 = 14 then some 3
  else if first / 0x08 = 30 then some 4
  else none

/-- The next `n` bytes, each one that continues a character. -/
def percentTail? : (n : Nat) → List Char → Option (List Nat)
  | 0, _ => some []
  | n + 1, cs => do
    let (b, cs) ← percentByte? cs
    if b / 0x40 = 2 then return b :: (← percentTail? n cs) else none

/-- A character written with percent signs: its bytes. -/
def percentChar? (cs : List Char) : Option (List Nat) := do
  let (b, rest) ← percentByte? cs
  return b :: (← percentTail? ((← byteCount? b) - 1) rest)

/-- The rest of a tag onto the characters in `out`, last first, in at most `fuel` of them. -/
def scanTagChars (verbatim : Bool) (out : List Char) :
    (fuel : Nat) → Cursor → Option (List Char × Cursor)
  | 0, _ => none
  | fuel + 1, c =>
    match c.rest with
    | [] => some (out.reverse, c)
    | x :: _ =>
      if x = '%' then
        match percentChar? c.rest with
        | none => none
        | some bytes =>
          let text := (Text.decodeLossy (bytes.map UInt8.ofNat)).toList
          scanTagChars verbatim (text.reverse ++ out) fuel (c.skip (3 * bytes.length))
      else if isTagChar verbatim x then scanTagChars verbatim (x :: out) fuel c.next
      else some (out.reverse, c)

/-- The handle a tag starts with: an exclamation mark, or a name between two. Where the second
one is missing, the name belongs to the rest of the tag. -/
def scanHandle (c : Cursor) : Option (List Char × Cursor) :=
  if c.sees '!' then
    let (name, next) := c.next.span isNameChar
    if next.sees '!' then some ('!' :: name ++ ['!'], next.next) else some ('!' :: name, next)
  else none

/-- A tag in angle brackets, from the first bracket on. -/
def scanVerbatimTag (fuel : Nat) (c : Cursor) : Option (TagName × Cursor) := do
  let (text, c) ← scanTagChars true [] fuel c.next
  if text.isEmpty || !c.sees '>' then none else return (⟨"", String.ofList text⟩, c.next)

/-- A tag that starts with a handle. A single exclamation mark is a tag without a handle. -/
def scanShortTag (fuel : Nat) (c : Cursor) : Option (TagName × Cursor) := do
  let (handle, c) ← scanHandle c
  if handle.length > 1 && handle.getLast? = some '!' then
    let (text, c) ← scanTagChars false [] fuel c
    if text.isEmpty then none
    else return (⟨String.ofList handle, String.ofList text⟩, c)
  else
    let (text, c) ← scanTagChars false handle.tail.reverse fuel c
    return (if text.isEmpty then ⟨"", "!"⟩ else ⟨"!", String.ofList text⟩, c)

/-- A tag, which has to stand apart; inside brackets a comma may follow. -/
def scanTag (flow : Bool) (fuel : Nat) (c : Cursor) : Option (TagName × Cursor) := do
  let (name, c) ← if c.next.sees '<' then scanVerbatimTag fuel c.next else scanShortTag fuel c
  if c.atSpace || (flow && c.sees ',') then return (name, c) else none

/-- A number of a version, of at most nine digits. -/
def scanVersionPart (c : Cursor) : Option (Nat × Cursor) :=
  let (digits, c) := c.span Char.isDigit
  if digits.isEmpty || 9 < digits.length then none else some (Decimal.ofDigits digits, c)

/-- The directive that tells the version. -/
def scanVersion (c : Cursor) : Option (Token × Cursor) := do
  let (major, c) ← scanVersionPart (c.past isBlank)
  if c.sees '.' then
    let (minor, c) ← scanVersionPart c.next
    return (.version major minor, c)
  else none

/-- The directive that tells what a handle stands for. -/
def scanTagDirective (fuel : Nat) (c : Cursor) : Option (Token × Cursor) := do
  let (handle, c) ← scanHandle (c.past isBlank)
  if handle.getLast? ≠ some '!' || !(c.rest.head?.any isBlank) then none
  else
    let (start, c) ← scanTagChars true [] fuel (c.past isBlank)
    if start.isEmpty || !c.atSpace then none
    else return (.tagHandle (String.ofList handle) (String.ofList start), c)

/-- A directive after its percent sign, with the line it is on. -/
def scanDirective (fuel : Nat) (c : Cursor) : Option (Token × Cursor) := do
  let (name, c) := c.span isNameChar
  if !c.atSpace then none
  else
    let (token, c) ←
      if name = "YAML".toList then scanVersion c
      else if name = "TAG".toList then scanTagDirective fuel c
      else none
    return (token, ← c.endOfLine?)

end StaleDocs.Yaml
