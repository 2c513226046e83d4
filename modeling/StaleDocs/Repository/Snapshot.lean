/-
A repository held as a value: one diff, the files as they are now, and files at revisions.
-/
import StaleDocs.Repository.Basic

namespace StaleDocs.Repository

/-- The content of a repository. When it is detached, it has no diff. -/
structure Snapshot where
  diff : List UInt8
  files : List (String × String)
  revisions : List ((String × String) × String)
  detached : Bool

/-- The diff, whatever the base. -/
def Snapshot.diff? (s : Snapshot) : Except LookupError (List UInt8) :=
  if s.detached then .error .noRepository else .ok s.diff

/-- A file at a revision. -/
def Snapshot.fileAt? (s : Snapshot) (path revision : String) : Except LookupError String :=
  match s.revisions.lookup (revision, path) with
  | some text => .ok text
  | none => .error (.notFound path revision)

/-- A file as it is now. -/
def Snapshot.current? (s : Snapshot) (path : String) : Except LookupError String :=
  match s.files.lookup path with
  | some text => .ok text
  | none => .error (.notFound path worktree)

/-- The repository that a snapshot stands for. -/
def Snapshot.repository {m : Type → Type} [Monad m] (s : Snapshot) : Repository m where
  diff _ := pure s.diff?
  uncommitted := pure s.diff?
  fileAt path revision := pure (s.fileAt? path revision)
  current path := pure (s.current? path)

end StaleDocs.Repository
