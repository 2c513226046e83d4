/-
Scalars as indented blocks of lines, kept as they stand or folded. A header may tell the
indentation, which otherwise is that of the first line with text, and whether the line ends
after the last line with text are dropped, kept to one, or all kept.
-/
import StaleDocs.Yaml.Cursor

namespace StaleDocs.Yaml

/-- What happens to the line ends at the end of a block. -/
inductive Chomp where
  | strip
  | clip
  | keep
deriving DecidableEq

/-- What stands before a block. -/
structure BlockHeader where
  chomp : Chomp
  /-- How much further than its surroundings the block is indented, if that is told. -/
  indent : Option Nat

/-- A sign for the end of the block. -/
def chomp? : Option Char → Option Chomp
  | some '-' => some .strip
  | some '+' => some .keep
  | _ => none

/-- A digit for the indentation; zero is refused. -/
def indentDigit? (c : Option Char) : Option (Option Nat) :=
  match c with
  | some d => if d = '0' then none else if d.isDigit then some (some (d.toNat - 48)) else some none
  | none => some none

/-- Reads the signs of a header in either order. -/
def scanHeader (c : Cursor) : Option (BlockHeader × Cursor) := do
  match chomp? c.rest.head? with
  | some chomp =>
    let indent ← indentDigit? c.next.rest.head?
    return (⟨chomp, indent⟩, if indent.isSome then c.skip 2 else c.next)
  | none =>
    let indent ← indentDigit? c.rest.head?
    let c := if indent.isSome then c.next else c
    match indent, chomp? c.rest.head? with
    | some _, some chomp => return (⟨chomp, indent⟩, c.next)
    | _, _ => return (⟨.clip, indent⟩, c)

/-- Whether a column is still within an indentation, which may be unknown. -/
def within (indent : Option Nat) (column : Nat) : Bool :=
  indent.all (column < ·)

/-- The place after the spaces of an indentation. -/
def Cursor.pastIndent (indent : Option Nat) (c : Cursor) : Cursor :=
  let spaces := (c.rest.takeWhile (· = ' ')).length
  c.skip (match indent with
    | some n => min spaces (n - c.column)
    | none => spaces)

/-- Lines without text: their widest indentation, their ends, and the place where a line with
text starts or the block is over. A tab in the indentation is refused. -/
def scanEmptyLines (indent : Option Nat) (widest : Nat) (breaks : List Char) :
    (fuel : Nat) → Cursor → Option (Nat × List Char × Cursor)
  | 0, _ => none
  | fuel + 1, c =>
    let c := c.pastIndent indent
    let widest := max widest c.column
    match c.rest with
    | [] => some (widest, breaks.reverse, c)
    | x :: _ =>
      if x = '\t' && within indent c.column then none
      else if isBreak x then scanEmptyLines indent widest (x :: breaks) fuel c.next
      else some (widest, breaks.reverse, c)

/-- The line read last: its end, and whether it starts with a blank. -/
structure LastLine where
  ending : Option Char
  blank : Bool

/-- What joins two lines of a block that have empty lines between them. -/
def joint (folded : Bool) (last : LastLine) (blank : Bool) (empty : List Char) : List Char :=
  match last.ending with
  | none => empty
  | some b => if folded && !last.blank && !blank then foldSpace (b :: empty) else b :: empty

/-- The end of a block's text. -/
def Chomp.tail (chomp : Chomp) (last : LastLine) (empty : List Char) : List Char :=
  match chomp with
  | .strip => []
  | .clip => last.ending.toList
  | .keep => last.ending.toList ++ empty

/-- The rest of a block onto the characters in `out`, last first, after a line and the ends of
empty lines, in at most `fuel` lines. -/
def scanLines (folded : Bool) (chomp : Chomp) (indent : Nat) (out : List Char)
    (last : LastLine) (empty : List Char) : (fuel : Nat) → Cursor → Option (List Char × Cursor)
  | 0, _ => none
  | fuel + 1, c =>
    if c.column = indent && !c.rest.isEmpty then do
      let blank := c.rest.head?.any isBlank
      let out := (joint folded last blank empty).reverse ++ out
      let (line, c) := c.span fun x => !isBreak x
      let last : LastLine := ⟨c.rest.head?, blank⟩
      let (_, empty, c) ← scanEmptyLines (some indent) 0 [] fuel c.next
      scanLines folded chomp indent (line.reverse ++ out) last empty fuel c
    else some ((chomp.tail last empty).reverse ++ out |>.reverse, c)

/-- The text of a block after its first sign, in surroundings of an indentation, and the place
after it. -/
def scanBlock (folded : Bool) (surrounding : Int) (fuel : Nat) (c : Cursor) :
    Option (List Char × Cursor) := do
  let (header, c) ← scanHeader c
  let c ← c.endOfLine?
  let told := header.indent.map fun n => (max surrounding 0).toNat + n
  let (widest, empty, c) ← scanEmptyLines told 0 [] fuel c
  let indent := told.getD (max widest (max (surrounding + 1) 1).toNat)
  scanLines folded header.chomp indent [] ⟨none, false⟩ empty fuel c

end StaleDocs.Yaml
