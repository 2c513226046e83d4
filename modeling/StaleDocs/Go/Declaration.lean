/-
The top-level declarations of Go source that can be documented: functions and methods, struct
types, and constants and variables, which share the text of their whole declaration. The blank
name binds no constant or variable.
-/
import StaleDocs.Diff.Hunk
import StaleDocs.Go.Source

namespace StaleDocs.Go

/-- What a declaration declares. -/
inductive SymbolKind where
  | function
  | type
  | const
  | var
deriving DecidableEq, Repr

/-- The word for a kind of declaration. -/
def SymbolKind.word : SymbolKind → String
  | .function => "function"
  | .type => "type"
  | .const => "const"
  | .var => "var"

/-- The first and the last line of a declaration. -/
structure LineSpan where
  first : Nat
  last : Nat
deriving DecidableEq, Repr

/-- Whether some hunk has a line of the span in its new range. -/
def LineSpan.overlaps (span : LineSpan) (hunks : List Diff.Hunk) : Bool :=
  hunks.any fun h => h.touches span.first span.last

/-- A declaration with the names that it binds, in order. -/
structure Declaration where
  kind : SymbolKind
  names : List String
  span : LineSpan
  code : String
deriving DecidableEq, Repr

/-- A declaration whose text is a piece of the source. -/
def Declaration.ofPiece (kind : SymbolKind) (names : List String) (p : Piece) : Declaration :=
  ⟨kind, names, ⟨p.line, p.lastLine⟩, p.text⟩

/-- Whether a declaration binds a name with a given kind. -/
def Declaration.declares (d : Declaration) (name : String) (kind : SymbolKind) : Bool :=
  d.kind = kind && d.names.contains name

/-- The first declaration that binds a name with a given kind. -/
def Declaration.find? (ds : List Declaration) (name : String) (kind : SymbolKind) :
    Option Declaration :=
  ds.find? fun d => d.declares name kind

/-- The declaration of constants or variables, if it binds any. -/
def Declaration.ofNames (kind : SymbolKind) (names : List String) (p : Piece) :
    List Declaration :=
  match names.filter (· ≠ "_") with
  | [] => []
  | bound => [.ofPiece kind bound p]

/-- The piece of a type specification in a declaration that starts at `start`. -/
def TypeSpec.piece (spec : TypeSpec) (start : Input) (p : Piece) : Piece :=
  ⟨p.line + lineFeeds (between start spec.start), between spec.start spec.rest⟩

/-- The struct types of a type declaration. A specification that is the only one stands for
the whole declaration; aliases do not count. -/
def Declaration.ofSpecs (specs : List TypeSpec) (start : Input) (p : Piece) :
    List Declaration :=
  let types := specs.filter fun spec => !spec.isAlias
  (types.filter (·.struct)).map fun spec =>
    .ofPiece .type [spec.name] (if types.length = 1 then p else spec.piece start p)

/-- The declarations of a top-level node. -/
def Node.declarations : Node → List Declaration
  | .comment _ => []
  | .code (.function name) _ p => [.ofPiece .function [name] p]
  | .code (.types specs) start p => Declaration.ofSpecs specs start p
  | .code (.constants names) _ p => Declaration.ofNames .const names p
  | .code (.variables names) _ p => Declaration.ofNames .var names p
  | .code _ _ _ => []

/-- The declarations of a source in order, unless it does not follow the grammar. -/
def declarations? (source : String) : Option (List Declaration) :=
  (nodes? source).map (·.flatMap Node.declarations)

end StaleDocs.Go
