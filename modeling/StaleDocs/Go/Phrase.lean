/-
What the rules of the grammar are made of. A rule takes the lexemes before it and gives back
those after the phrase it reads, or nothing if there is no such phrase; comments and blanks
around phrases are passed over. A line end is a terminator where the grammar lets a statement,
declaration or field end, and a blank everywhere else.

Types and expressions look alike, so one rule reads both, and the form of what it read says
how it can be used.
-/
import StaleDocs.Go.Lexeme

namespace StaleDocs.Go

/-- Where an expression stands. -/
structure Mode where
  /-- A line end after the whole expression ends it. -/
  ends : Bool
  /-- The block of a statement may follow, so a brace after a bare type name opens that. -/
  header : Bool
  /-- It is the first of a statement, so an assignment, `++`, `--` or `<-` may follow. -/
  leads : Bool

/-- An expression inside brackets of any kind. -/
def Mode.inner : Mode := ⟨false, false, false⟩

/-- How a phrase can be used. -/
inductive Form where
  /-- A single name: a value, or a type that a composite literal may start with. -/
  | name
  /-- Two names with a point between, used like a single one. -/
  | qualified
  /-- A name with something in brackets that may be type arguments or an index. -/
  | generic
  /-- A value or a type. -/
  | either
  /-- A value only. -/
  | value
  /-- A type only, that a composite literal may start with. -/
  | literalType
  /-- An array type without its length, that only starts a composite literal. -/
  | openArray
  /-- A channel type without an arrow before it. -/
  | channel
  /-- Any other type. -/
  | otherType
  /-- The question of a type switch, `x.(type)`. -/
  | typeQuestion
  /-- A phrase that is neither value nor type. -/
  | plain
deriving DecidableEq

/-- Whether a phrase can be a value. -/
def Form.isValue : Form → Bool
  | .name | .qualified | .generic | .either | .value => true
  | _ => false

/-- Whether a phrase can be a type. -/
def Form.isType : Form → Bool
  | .name | .qualified | .generic | .either | .literalType | .channel | .otherType => true
  | _ => false

/-- Whether a brace after the phrase may open a composite literal. -/
def Form.startsLiteral (header : Bool) : Form → Bool
  | .name | .qualified | .generic => !header
  | .literalType | .openArray => true
  | _ => false

/-- The lexemes still to be read. -/
abbrev Input := List Lexeme

/-- A rule that reads one phrase: the lexemes after it. -/
abbrev Rule := Input → Option Input

/-- A rule that also tells the form of the phrase. -/
abbrev FormRule := Input → Option (Form × Input)

/-- Blanks within a line, and comments. -/
def Lexeme.isInline (l : Lexeme) : Bool :=
  l.kind = .blank || l.kind = .comment

/-- Blanks, comments and line ends. -/
def Lexeme.isSpace (l : Lexeme) : Bool :=
  l.isInline || l.kind = .lineEnd

/-- The lexemes from the next one that matters, where line ends do not. -/
def skip (s : Input) : Input := s.dropWhile Lexeme.isSpace

/-- The lexemes from the next one that matters, where line ends do. -/
def skipInline (s : Input) : Input := s.dropWhile Lexeme.isInline

/-- Skips with regard to line ends or without. -/
def look (ends : Bool) (s : Input) : Input :=
  if ends then skipInline s else skip s

/-- The lexemes after a mark, if the input starts with it. -/
def atMark (c : Char) : Rule
  | l :: s => if l.kind = .mark c then some s else none
  | [] => none

/-- The lexemes after adjacent marks, if the input starts with them. -/
def atMarks : List Char → Rule
  | [], s => some s
  | c :: cs, s => do atMarks cs (← atMark c s)

/-- Whether the input starts with these marks. -/
def startsWith (marks : String) (s : Input) : Bool :=
  (atMarks marks.toList s).isSome

/-- The lexemes after the next mark. -/
def mark (c : Char) : Rule := fun s => atMark c (skip s)

/-- The lexemes after a keyword, if the input starts with it. -/
def atKeyword (word : String) : Rule
  | l :: s => if l.kind = .keyword && l.text = word then some s else none
  | [] => none

/-- A name and the lexemes after it, if the input starts with one. -/
def atName : Input → Option (String × Input)
  | l :: s => if l.kind = .name then some (l.text, s) else none
  | [] => none

/-- The next name. -/
def name (s : Input) : Option (String × Input) := atName (skip s)

/-- A string, if the input starts with one. -/
def atString : Rule
  | l :: s => if l.kind = .string then some s else none
  | [] => none

/-- The end of a statement, declaration or field: a line end or a semicolon. -/
def terminator (s : Input) : Option Input :=
  match skipInline s with
  | l :: rest => if l.kind = .lineEnd || l.kind = .mark ';' then some rest else none
  | [] => none

/-- One phrase or more with `sep` between, for at most `fuel` of them. -/
def separated (sep : Rule) (item : Rule) : (fuel : Nat) → Rule
  | 0, _ => none
  | fuel + 1, s => do
    let s ← item s
    match sep s with
    | some rest => separated sep item fuel rest
    | none => return s

/-- Phrases with commas between up to `close`; a comma may stand before that. -/
def listed (close : Char) (item : Rule) : (fuel : Nat) → Rule
  | 0, _ => none
  | fuel + 1, s =>
    match mark close s with
    | some rest => some rest
    | none => do
      let s ← item s
      match mark ',' s with
      | some rest => listed close item fuel rest
      | none => mark close s

/-- Phrases up to `close`, with a terminator between any two and, unless `strict`, not
necessarily after the last. -/
def terminated (strict : Bool) (close : Char) (item : Rule) : (fuel : Nat) → Rule
  | 0, _ => none
  | fuel + 1, s =>
    match mark close s with
    | some rest => some rest
    | none => do
      let s ← item (skip s)
      match terminator s with
      | some rest => terminated strict close item fuel rest
      | none => if strict then none else mark close s

/-- The phrases that contain one another. -/
inductive Phrase where
  /-- A type; the flag says whether a line end may follow it. -/
  | type (ends : Bool)
  /-- An expression, or a type in its place. -/
  | expression (mode : Mode)
  /-- An operand with what stands before and after it, but no binary operator. -/
  | unary (mode : Mode)
  /-- Parameters in parentheses. -/
  | parameters
  /-- The braces of a composite literal. -/
  | literalValue
  | block
  | statement
  /-- An `if` statement. -/
  | conditional

/-- How the phrases are read. -/
abbrev Rules := Phrase → FormRule

/-- A phrase whose form does not matter. -/
def Rules.read (rules : Rules) (p : Phrase) : Rule := fun s => (rules p s).map (·.2)

/-- An expression that is a value. -/
def Rules.value (rules : Rules) (mode : Mode) : Rule := fun s => do
  let (form, s) ← rules (.expression mode) s
  if form.isValue then return s else none

end StaleDocs.Go
