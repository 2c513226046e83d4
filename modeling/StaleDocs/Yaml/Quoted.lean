/-
Scalars in quotes. In single quotes only the quote itself is written otherwise, twice; in
double quotes a backslash starts an escape. Line ends are folded, and blanks around them
dropped; a backslash at the end of a line takes the line end away.
-/
import StaleDocs.Text.Word
import StaleDocs.Yaml.Cursor

namespace StaleDocs.Yaml
open Text (hexValue?)

/-- The quotes around a scalar. -/
inductive Quote where
  | single
  | double
deriving DecidableEq

/-- The quotation mark. -/
def Quote.mark : Quote → Char
  | .single => '\''
  | .double => '"'

/-- The number that hexadecimal digits write. -/
def ofHexDigits? (digits : List Char) : Option Nat :=
  digits.foldlM (fun n c => (hexValue? c).map (16 * n + ·)) 0

/-- The character that `width` hexadecimal digits write. -/
def hexChar? (width : Nat) (cs : List Char) : Option Char := do
  let digits := cs.take width
  if digits.length < width then none
  else
    let n ← ofHexDigits? digits
    if n.isValidChar then return Char.ofNat n else none

/-- The character that an escape stands for, and how many characters follow the backslash. -/
def escape? : List Char → Option (Char × Nat)
  | '0' :: _ => some ('\x00', 1)
  | 'a' :: _ => some ('\x07', 1)
  | 'b' :: _ => some ('\x08', 1)
  | 't' :: _ => some ('\t', 1)
  | '\t' :: _ => some ('\t', 1)
  | 'n' :: _ => some ('\n', 1)
  | 'v' :: _ => some ('\x0b', 1)
  | 'f' :: _ => some ('\x0c', 1)
  | 'r' :: _ => some ('\r', 1)
  | 'e' :: _ => some ('\x1b', 1)
  | ' ' :: _ => some (' ', 1)
  | '"' :: _ => some ('"', 1)
  | '/' :: _ => some ('/', 1)
  | '\\' :: _ => some ('\\', 1)
  | 'N' :: _ => some ('\u0085', 1)
  | '_' :: _ => some ('\u00a0', 1)
  | 'L' :: _ => some ('\u2028', 1)
  | 'P' :: _ => some ('\u2029', 1)
  | 'x' :: cs => (hexChar? 2 cs).map (·, 3)
  | 'u' :: cs => (hexChar? 4 cs).map (·, 5)
  | 'U' :: cs => (hexChar? 8 cs).map (·, 9)
  | _ => none

/-- A piece of a quoted scalar: its text and the place after it. -/
def quotedPiece? (q : Quote) (c : Cursor) : List Char → Option (List Char × Cursor)
  | [] => none
  | x :: xs =>
    if x = '\\' && q = .double then
      if xs.head?.any isBreak then
        let (run, c) := (c.skip 2).span isSpace
        some (run.filter isBreak, c)
      else (escape? xs).map fun (e, n) => ([e], c.skip (n + 1))
    else if isSpace x then
      let (run, c) := c.span isSpace
      some (foldSpace run, c)
    else some ([x], c.next)

/-- The rest of a scalar onto the characters in `out`, last first, and the place after its
closing quote, in at most `fuel` pieces. -/
def scanQuoted (q : Quote) (out : List Char) : (fuel : Nat) → Cursor → Option (List Char × Cursor)
  | 0, _ => none
  | fuel + 1, c =>
    if c.sees q.mark then
      if q = .single && c.next.sees q.mark then scanQuoted q (q.mark :: out) fuel (c.skip 2)
      else some (out.reverse, c.next)
    else
      match quotedPiece? q c c.rest with
      | none => none
      | some (piece, c) =>
        if c.atDocumentMark then none else scanQuoted q (piece.reverse ++ out) fuel c

end StaleDocs.Yaml
