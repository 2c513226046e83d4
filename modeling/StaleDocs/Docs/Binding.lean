/-
Bindings: blocks of documentation that name the declaration they are about. A block is what
lies between a start and an end marker, each in a comment somewhere on its line, and the last
`bindCode` marker in it says what it is bound to; the lines after that marker are its text.
-/
import StaleDocs.Docs.Segment
import StaleDocs.Go.Declaration
import StaleDocs.Text.Blank
import StaleDocs.Text.Lines
import StaleDocs.Text.Search
import StaleDocs.Text.Word

namespace StaleDocs.Docs
open Go (SymbolKind)
open Text (after? trimStart isBlank)

/-- A documented block with the declaration it is bound to. -/
structure Binding where
  docFile : String
  /-- The line of the `bindCode` marker. -/
  docLine : Nat
  /-- The line of the end marker. -/
  endLine : Nat
  codeFile : String
  kind : SymbolKind
  symbol : String
  docContent : String
deriving DecidableEq, Repr

/-- The block as a segment under the name it is bound to. -/
def Binding.segment (b : Binding) : Segment :=
  { file := b.docFile
    heading := b.symbol
    level := 0
    startLine := b.docLine
    endLine := b.endLine
    content := b.docContent
    kind := .markdown }

/-- What the first place in a text yields that yields anything. -/
def firstMatch? {α : Type} (read : List Char → Option α) : List Char → Option α
  | [] => read []
  | c :: cs =>
    match read (c :: cs) with
    | some x => some x
    | none => firstMatch? read cs

/-- The opening of a comment with a word of ours: the text after the word. -/
def openMarker? (word : String) (cs : List Char) : Option (List Char) := do
  after? word.toList (trimStart (← after? "<!--".toList cs))

/-- The closing of a comment, after blanks. -/
def closeMarker? (cs : List Char) : Option Unit := do
  let _ ← after? "-->".toList (trimStart cs)

/-- Whether a comment with just this word is somewhere on the line. -/
def hasMarker (word : String) (line : List Char) : Bool :=
  (firstMatch? (fun cs => (openMarker? word cs).bind closeMarker?) line).isSome

/-- Whether a line has a start marker. -/
def isStart (line : List Char) : Bool := hasMarker "docuguard:start" line

/-- Whether a line has an end marker. -/
def isEnd (line : List Char) : Bool := hasMarker "docuguard:end" line

/-- A text without the blanks at its start, of which there must be one. -/
def afterBlanks? (cs : List Char) : Option (List Char) :=
  match cs with
  | c :: _ => if isBlank c then some (trimStart cs) else none
  | [] => none

/-- A value in double quotes, which must not be empty, and the text after it. -/
def quotedValue? (cs : List Char) : Option (List Char × List Char) := do
  let rest ← after? ['"'] cs
  match rest.takeWhile (· ≠ '"'), rest.dropWhile (· ≠ '"') with
  | [], _ => none
  | _, [] => none
  | value, _ :: rest => return (value, rest)

/-- What a `bindCode` marker says: the file, the key that names the declaration, and its
name. -/
structure Target where
  codeFile : List Char
  key : List Char
  symbol : List Char

/-- The `bindCode` marker that a text starts with. -/
def targetAt? (cs : List Char) : Option Target := do
  let rest ← after? "path=".toList (← afterBlanks? (← openMarker? "docuguard:bindCode" cs))
  let (codeFile, rest) ← quotedValue? rest
  let rest ← afterBlanks? rest
  let key := rest.takeWhile Text.isWord
  if key.isEmpty then none
  let (symbol, rest) ← quotedValue? (← after? ['='] (rest.dropWhile Text.isWord))
  closeMarker? rest
  return ⟨codeFile, key, symbol⟩

/-- The first `bindCode` marker on a line. -/
def target? (line : List Char) : Option Target := firstMatch? targetAt? line

/-- The kind of declaration that a key names, in any case; an unknown one names a
function. -/
def kindOfKey (key : List Char) : SymbolKind :=
  match String.ofList (key.map Char.toLower) with
  | "struct" => .type
  | "type" => .type
  | "const" => .const
  | "var" => .var
  | _ => .function

/-- A block after its marker; its lines are kept last first. -/
structure OpenBinding where
  line : Nat
  target : Target
  lines : List (List Char)

/-- The binding of a block that ends. -/
def OpenBinding.close (file : String) (endLine : Nat) (b : OpenBinding) : Binding :=
  { docFile := file
    docLine := b.line
    endLine
    codeFile := String.ofList b.target.codeFile
    kind := kindOfKey b.target.key
    symbol := String.ofList b.target.symbol
    docContent := String.ofList (Text.trim (Text.joinLines b.lines.reverse)) }

/-- The bindings of the lines from number `n` on, where a block may be open, and in it a
marker may have been passed. -/
def bindingsFrom (file : String) (inBlock : Bool) (current : Option OpenBinding) (n : Nat) :
    List (List Char) → List Binding
  | [] => []
  | line :: rest =>
    if isStart line then bindingsFrom file true none (n + 1) rest
    else if isEnd line then
      (current.map (OpenBinding.close file n)).toList ++ bindingsFrom file false none (n + 1) rest
    else if !inBlock then bindingsFrom file false current (n + 1) rest
    else
      match target? line with
      | some target => bindingsFrom file true (some ⟨n, target, []⟩) (n + 1) rest
      | none =>
        bindingsFrom file true (current.map fun b => { b with lines := line :: b.lines }) (n + 1)
          rest

/-- The bindings of a text. -/
def bindings (file text : String) : List Binding :=
  bindingsFrom file false none 1 (Text.lines text.toList)

end StaleDocs.Docs
