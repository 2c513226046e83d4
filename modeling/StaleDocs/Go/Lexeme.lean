/-
Go source as lexemes. Every character of the source belongs to exactly one lexeme, blanks and
comments included, so that the lexemes in order spell the source. Marks are single characters;
an operator of several characters is a run of marks, and the grammar decides where it ends.
-/
import StaleDocs.Go.Literal
import StaleDocs.Go.NameTable
import StaleDocs.Text.Edges

namespace StaleDocs.Go

/-- What a lexeme is. -/
inductive Lexeme.Kind where
  /-- White space within a line. -/
  | blank
  /-- One line feed. -/
  | lineEnd
  | comment
  /-- A name, predeclared ones included. -/
  | name
  | keyword
  /-- A number or a character. -/
  | literal
  | string
  /-- A single other character. -/
  | mark (c : Char)
deriving DecidableEq

/-- A piece of source text. -/
structure Lexeme where
  kind : Lexeme.Kind
  text : String
deriving DecidableEq

/-- The words that are never names. -/
def keywords : List String :=
  ["break", "case", "chan", "const", "continue", "default", "defer", "else", "fallthrough",
    "for", "func", "go", "goto", "if", "import", "interface", "map", "package", "range",
    "return", "select", "struct", "switch", "type", "var"]

/-- Whether a name may start with the character. -/
def startsName (c : Char) : Bool :=
  if c.toNat < 128 then c.isAlpha || c = '_' else Text.withinEdges nameStartEdges c.toNat

/-- Whether a name may go on with the character. -/
def continuesName (c : Char) : Bool :=
  if c.toNat < 128 then c.isAlphanum || c = '_' else Text.withinEdges namePartEdges c.toNat

/-- White space within a line. -/
def isInlineBlank (c : Char) : Bool :=
  c = ' ' || c = '\t' || c = '\r' || c = '\x0b' || c = '\x0c'

/-- The rest of a comment between `/*` and its end mark, of which `n` characters were passed. -/
def blockCommentFrom (n : Nat) : Extent
  | '*' :: '/' :: _ => some (n + 2)
  | _ :: cs => blockCommentFrom (n + 1) cs
  | [] => none

/-- A comment to the end of the line, or between its marks. -/
def comment : Extent
  | '/' :: '/' :: cs => some (2 + (cs.takeWhile (· ≠ '\n')).length)
  | '/' :: '*' :: cs => blockCommentFrom 2 cs
  | _ => none

/-- The kind and the length of the lexeme that a text starts with. -/
def lexemeAt (c : Char) (cs : List Char) : Lexeme.Kind × Nat :=
  if c = '\n' then (.lineEnd, 1)
  else if isInlineBlank c then (.blank, 1 + (cs.takeWhile isInlineBlank).length)
  else if startsName c then
    let rest := cs.takeWhile continuesName
    (if keywords.contains (String.ofList (c :: rest)) then .keyword else .name, 1 + rest.length)
  else
    match comment (c :: cs) with
    | some n => (.comment, n)
    | none =>
      match string (c :: cs) with
      | some n => (.string, n)
      | none =>
        match Extent.longest [number, rune] (c :: cs) with
        | some n => (.literal, n)
        | none => (.mark c, 1)

/-- The lexemes of a text onto those in `out`, last first, in at most `fuel` steps. Every
lexeme has at least one character. -/
def scanFrom (out : List Lexeme) : (fuel : Nat) → List Char → List Lexeme
  | 0, _ => out.reverse
  | _ + 1, [] => out.reverse
  | fuel + 1, c :: cs =>
    let (kind, n) := lexemeAt c cs
    scanFrom (⟨kind, String.ofList (c :: cs.take (n - 1))⟩ :: out) fuel (cs.drop (n - 1))

/-- The lexemes of a source text. A byte order mark at its start is a blank. -/
def scan (source : String) : List Lexeme :=
  match source.toList with
  | '\ufeff' :: cs => scanFrom [⟨.blank, "\ufeff"⟩] cs.length cs
  | cs => scanFrom [] cs.length cs

/-- The source text of lexemes. -/
def spell (ls : List Lexeme) : String :=
  String.join (ls.map (·.text))

/-- The line feeds in a lexeme. -/
def Lexeme.lineFeeds (l : Lexeme) : Nat :=
  l.text.toList.count '\n'

/-- The line feeds in lexemes. -/
def lineFeeds (ls : List Lexeme) : Nat :=
  (ls.flatMap fun l => l.text.toList).count '\n'

end StaleDocs.Go
