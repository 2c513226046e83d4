/-
Segments: the units in which documentation is compared with code.
-/
namespace StaleDocs.Docs

/-- Where a segment comes from. -/
inductive DocKind where
  | markdown
  | goComment
deriving DecidableEq, Repr

/-- The word for a kind of documentation. -/
def DocKind.word : DocKind → String
  | .markdown => "markdown"
  | .goComment => "godoc"

/-- A piece of documentation under one heading. -/
structure Segment where
  file : String
  heading : String
  level : Nat
  startLine : Nat
  endLine : Nat
  content : String
  kind : DocKind
deriving DecidableEq, Repr

end StaleDocs.Docs
