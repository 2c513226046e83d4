/-
Changed files: which file a section of a diff is about, how it changed, and the text of the
lines added and removed.
-/
import StaleDocs.Diff.Hunk

namespace StaleDocs.Diff

/-- How a file, or a declaration in it, changed. -/
inductive ChangeKind where
  | added
  | modified
  | deleted
deriving DecidableEq, Repr

/-- The word for a kind of change. -/
def ChangeKind.word : ChangeKind → String
  | .added => "added"
  | .modified => "modified"
  | .deleted => "deleted"

/-- What a diff says about one pair of paths. -/
structure FileChange where
  oldPath : String
  newPath : String
  kind : ChangeKind
  /-- In normal form. -/
  hunks : List Hunk
  addedLines : List String
  removedLines : List String
deriving DecidableEq, Repr

/-- The path that identifies the file: the old one of a deleted file, else the new one. -/
def FileChange.path (c : FileChange) : String :=
  match c.kind with
  | .deleted => c.oldPath
  | _ => c.newPath

/-- Whether the two paths differ. -/
def FileChange.isRename (c : FileChange) : Bool :=
  c.oldPath != c.newPath

/-- Whether two records are about the same pair of paths. -/
def FileChange.samePaths (a b : FileChange) : Bool :=
  a.oldPath = b.oldPath && a.newPath = b.newPath

/-- Two sections about one pair of paths, as one: the first kind that is not plain
modification stands, and the hunks are brought to normal form together. -/
def FileChange.merge (a b : FileChange) : FileChange :=
  { a with
    kind := if a.kind = .modified then b.kind else a.kind
    hunks := normalize (a.hunks ++ b.hunks)
    addedLines := a.addedLines ++ b.addedLines
    removedLines := a.removedLines ++ b.removedLines }

/-- Adds a section to the records: into the one with its paths, else as the last. -/
def record (c : FileChange) : List FileChange → List FileChange
  | [] => [c]
  | f :: fs => if f.samePaths c then f.merge c :: fs else f :: record c fs

end StaleDocs.Diff
