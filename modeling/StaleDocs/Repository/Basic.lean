/-
Repositories: where the text of a diff, of a file now, and of a file at a revision comes from.
The effects of looking things up are those of a monad, so that a repository may be a value, a
scripted one, or the real thing.
-/
import StaleDocs.Files.Basic

namespace StaleDocs.Repository
open Files (FileError)

/-- Why a repository has no answer. -/
inductive LookupError where
  | noRepository
  | notFound (path revision : String)
  | command (arguments complaint : String)
  | file (fault : FileError)
deriving DecidableEq, Repr

/-- The fault in words. -/
def LookupError.message : LookupError → String
  | .noRepository => "not inside a git repository"
  | .notFound path revision => path ++ " does not exist at " ++ revision
  | .command arguments complaint => "git " ++ arguments ++ " failed: " ++ complaint
  | .file fault => fault.message

/-- The name under which the files as they are now are said to lack a path. -/
def worktree : String := "worktree"

end StaleDocs.Repository

namespace StaleDocs
open Repository (LookupError)

/-- A repository whose look-ups have the effects of `m`. -/
structure Repository (m : Type → Type) where
  /-- What the current branch changes against a base. -/
  diff : (base : String) → m (Except LookupError (List UInt8))
  /-- What is staged, then what is not. -/
  uncommitted : m (Except LookupError (List UInt8))
  /-- A file at a revision. -/
  fileAt : (path revision : String) → m (Except LookupError String)
  /-- A file as it is now. -/
  current : (path : String) → m (Except LookupError String)

end StaleDocs
