/-
Documentation in Go source: the comments right above a package clause, function, method or
type declaration. Comments belong together when each starts at most one line after the end of
the one before; a comment that starts on the line where code ends belongs to nothing.
-/
import StaleDocs.Docs.Segment
import StaleDocs.Go.Source
import StaleDocs.Text.Blank
import StaleDocs.Text.Lines
import StaleDocs.Text.Search

namespace StaleDocs.Docs
open Go (Node Piece Code)

/-- The lines of a comment without its marks. A directive to the compiler has none. -/
def commentLines (comment : List Char) : List (List Char) :=
  match Text.after? ['/', '/'] comment with
  | some line =>
    if (Text.after? "go:".toList line).isSome then []
    else [Text.trimEnd ((Text.after? [' '] line).getD line)]
  | none => (Text.lines ((comment.drop 2).take (comment.length - 4))).map Text.trim

/-- The text of comments, in order. -/
def commentText (block : List Piece) : List Char :=
  Text.trim (Text.joinLines (block.flatMap fun p => commentLines p.text.toList))

/-- The headings and levels under which a piece of code is documented. -/
def headings : Code → List (String × Nat)
  | .package name => [("Package " ++ name, 1)]
  | .function name => [("func " ++ name, 2)]
  | .types specs => specs.map fun spec => ("type " ++ spec.name, 2)
  | _ => []

/-- The segments of a block of comments, last first, that stands right above code, one for
each heading, unless it has no text. -/
def blockSegments (file : String) (block : List Piece) (what : Code) : List Segment :=
  match block.getLast?, block, commentText block.reverse with
  | some first, last :: _, c :: cs =>
    (headings what).map fun (heading, level) =>
      { file, heading, level
        startLine := first.line
        endLine := last.lastLine
        content := String.ofList (c :: cs)
        kind := .goComment }
  | _, _, _ => []

/-- A block of comments, last first, after one more comment. -/
def extendBlock (block : List Piece) (comment : Piece) : List Piece :=
  match block with
  | last :: _ => if comment.line ≤ last.lastLine + 1 then comment :: block else [comment]
  | [] => [comment]

/-- Whether a block of comments, last first, ends on the line above a piece. -/
def isRightAbove (block : List Piece) (p : Piece) : Bool :=
  match block with
  | last :: _ => last.lastLine + 1 = p.line
  | [] => false

/-- The segments of top-level nodes, after an open block of comments and code that ended on the
line `codeEnd`. -/
def commentSegmentsFrom (file : String) (block : List Piece) (codeEnd : Option Nat) :
    List Node → List Segment
  | [] => []
  | .comment p :: nodes =>
    if codeEnd = some p.line then commentSegmentsFrom file block codeEnd nodes
    else commentSegmentsFrom file (extendBlock block p) codeEnd nodes
  | .code what _ p :: nodes =>
    (if isRightAbove block p then blockSegments file block what else []) ++
      commentSegmentsFrom file [] (some p.lastLine) nodes

/-- The segments of a Go source, unless it does not follow the grammar. -/
def goSegments? (file source : String) : Option (List Segment) :=
  (Go.nodes? source).map (commentSegmentsFrom file [] none)

end StaleDocs.Docs
