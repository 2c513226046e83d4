/-
Text as bytes: UTF-8. A sequence is well formed when it is the shortest one of a character,
so there are no overlong forms, no surrogates, and nothing above U+10FFFF.
-/
namespace StaleDocs.Text

/-- What the first byte of a longer sequence promises: its own bits, the range of the second
byte, and how many bytes follow. -/
structure Lead where
  bits : Nat
  low : UInt8
  high : UInt8
  tails : Nat

/-- The promise of a first byte that is not ASCII. -/
def lead? (b : UInt8) : Option Lead :=
  if b < 0xc2 then none
  else if b < 0xe0 then some ⟨b.toNat - 0xc0, 0x80, 0xbf, 1⟩
  else if b = 0xe0 then some ⟨0, 0xa0, 0xbf, 2⟩
  else if b = 0xed then some ⟨13, 0x80, 0x9f, 2⟩
  else if b < 0xf0 then some ⟨b.toNat - 0xe0, 0x80, 0xbf, 2⟩
  else if b = 0xf0 then some ⟨0, 0x90, 0xbf, 3⟩
  else if b < 0xf4 then some ⟨b.toNat - 0xf0, 0x80, 0xbf, 3⟩
  else if b = 0xf4 then some ⟨4, 0x80, 0x8f, 3⟩
  else none

/-- Reads `n` continuation bytes, the first within `low … high`: the code point and the rest,
or the rest after the bytes that fitted. -/
def readTails (code : Nat) (low high : UInt8) :
    (n : Nat) → List UInt8 → Except (List UInt8) (Nat × List UInt8)
  | 0, bytes => .ok (code, bytes)
  | _ + 1, [] => .error []
  | n + 1, b :: bytes =>
    if low ≤ b && b ≤ high then readTails (64 * code + (b.toNat - 0x80)) 0x80 0xbf n bytes
    else .error (b :: bytes)

/-- The first character and the bytes after it, or the bytes after the ill-formed start. -/
def nextChar (b : UInt8) (bytes : List UInt8) : Except (List UInt8) (Char × List UInt8) :=
  if b < 0x80 then .ok (Char.ofNat b.toNat, bytes)
  else
    match lead? b with
    | none => .error bytes
    | some lead =>
      match readTails lead.bits lead.low lead.high lead.tails bytes with
      | .ok (code, rest) => .ok (Char.ofNat code, rest)
      | .error rest => .error rest

/-- Decodes well-formed characters for at most `fuel` steps, onto those in `out`, last first:
all characters, and the bytes from the first ill-formed one on. -/
def decodeFrom (out : List Char) : (fuel : Nat) → List UInt8 → List Char × List UInt8
  | 0, bytes => (out.reverse, bytes)
  | _ + 1, [] => (out.reverse, [])
  | fuel + 1, b :: bytes =>
    match nextChar b bytes with
    | .ok (c, rest) => decodeFrom (c :: out) fuel rest
    | .error _ => (out.reverse, b :: bytes)

/-- The longest well-formed start of a byte sequence, decoded, and the bytes after it. -/
def decodeUtf8 (bytes : List UInt8) : List Char × List UInt8 :=
  decodeFrom [] bytes.length bytes

/-- Decodes every byte sequence, with the replacement character for each ill-formed part. -/
def decodeLossyFrom (out : List Char) : (fuel : Nat) → List UInt8 → List Char
  | 0, _ => out.reverse
  | _ + 1, [] => out.reverse
  | fuel + 1, b :: bytes =>
    match nextChar b bytes with
    | .ok (c, rest) => decodeLossyFrom (c :: out) fuel rest
    | .error rest => decodeLossyFrom ('\ufffd' :: out) fuel rest

/-- The text of a byte sequence, with U+FFFD for each maximal ill-formed part. -/
def decodeLossy (bytes : List UInt8) : String :=
  String.ofList (decodeLossyFrom [] bytes.length bytes)

/-- A text without the mark of its encoding at its start. -/
def dropMark : List Char → List Char
  | '\ufeff' :: cs => cs
  | cs => cs

end StaleDocs.Text
