/-
Go source as its top-level nodes: comments and code. Code is what the rules for source files
read: package clauses, imports, functions, methods and statements, each but the last closed by
a terminator. A comment after the last lexeme of a piece of code does not belong to it.
-/
import StaleDocs.Go.Grammar

namespace StaleDocs.Go

/-- What a piece of top-level code is. -/
inductive Code where
  | package (name : String)
  /-- A function or method, with its name. -/
  | function (name : String)
  | types (specs : List TypeSpec)
  | constants (names : List String)
  | variables (names : List String)
  /-- An import, a statement or an expression. -/
  | other

/-- A function's body, if it has one on the same line. -/
def optionalBlock (rules : Rules) (s : Input) : Option Input :=
  let t := skipInline s
  if startsWith "\x7b" t then rules.read .block t else some s

/-- A function after its name. -/
def functionRest (n : Nat) (rules : Rules) (s : Input) : Option Input := do
  let s ← match mark '[' s with
    | some rest => typeParameters n rules rest
    | none => some s
  optionalBlock rules (← signature rules true s)

/-- The name of a method after its receiver, if parameters follow the name. -/
def methodName? (rules : Rules) (s : Input) : Option (String × Input) := do
  let (word, s) ← name (← rules.read .parameters s)
  if startsWith "(" (skip s) then return (word, s) else none

/-- A statement at the top level. -/
def topStatement (n : Nat) (rules : Rules) (s : Input) : Option (Code × Input) := do
  return (.other, ← statement n rules s)

/-- A piece of code that starts with a keyword. -/
def keywordCode (n : Nat) (rules : Rules) (word : String) (s rest : Input) :
    Option (Code × Input) :=
  match word with
  | "package" => do
    let (word, rest) ← name rest
    return (.package word, rest)
  | "import" => do return (.other, ← imports n rest)
  | "const" => do
    let (names, rest) ← constNames n rules rest
    return (.constants names, rest)
  | "var" => do
    let (names, rest) ← varNames n rules rest
    return (.variables names, rest)
  | "type" => do
    let (specs, rest) ← typeSpecs n rules rest
    return (.types specs, rest)
  | "func" =>
    match name rest with
    | some (word, rest) => do return (.function word, ← functionRest n rules rest)
    | none =>
      match methodName? rules rest with
      | some (word, rest) => do
        return (.function word, ← optionalBlock rules (← signature rules true rest))
      | none => topStatement n rules s
  | _ => topStatement n rules s

/-- A piece of top-level code. -/
def code (n : Nat) (rules : Rules) (s : Input) : Option (Code × Input) :=
  match s with
  | [] => none
  | l :: rest =>
    if l.kind = .keyword then keywordCode n rules l.text s rest else topStatement n rules s

/-- Consecutive lexemes of a source, and the line that they start on. -/
structure Piece where
  line : Nat
  lexemes : List Lexeme

/-- The line that a piece ends on. -/
def Piece.lastLine (p : Piece) : Nat := p.line + lineFeeds p.lexemes

/-- The source text of a piece. -/
def Piece.text (p : Piece) : String := spell p.lexemes

/-- The lexemes from `start` up to `rest`, where `rest` is the end of `start`. -/
def between (start rest : Input) : List Lexeme :=
  start.take (start.length - rest.length)

/-- A top-level node. -/
inductive Node where
  | comment (piece : Piece)
  | code (what : Code) (start : Input) (piece : Piece)

/-- The nodes of a source from a line on; `unclosed` says that a piece of code still lacks its
terminator. -/
def nodesFrom (n : Nat) (rules : Rules) (unclosed : Bool) (line : Nat) : (fuel : Nat) → Input →
    Option (List Node)
  | 0, _ => none
  | _ + 1, [] => some []
  | fuel + 1, l :: s =>
    let next := line + l.lineFeeds
    match l.kind with
    | .comment => do
      return .comment ⟨line, [l]⟩ :: (← nodesFrom n rules unclosed next fuel s)
    | .blank => nodesFrom n rules unclosed next fuel s
    | .lineEnd => nodesFrom n rules false next fuel s
    | kind =>
      if unclosed then
        if kind = .mark ';' then nodesFrom n rules false next fuel s else none
      else do
        let (what, rest) ← code n rules (l :: s)
        let piece : Piece := ⟨line, between (l :: s) rest⟩
        return .code what (l :: s) piece :: (← nodesFrom n rules true piece.lastLine fuel rest)

/-- The top-level nodes of a source, unless it does not follow the grammar. A NUL character
stands in no source. -/
def nodes? (source : String) : Option (List Node) :=
  let s := scan source
  let depth := depthFor s
  if source.toList.contains '\x00' then none
  else nodesFrom depth (rulesTo depth) false 1 (s.length + 1) s

end StaleDocs.Go
