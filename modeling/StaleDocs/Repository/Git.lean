/-
A repository behind the command `git`. The branch is compared with the point where it left its
base, or with the base itself where that fails; uncommitted changes are those staged followed
by those that are not. A complaint that a path or a revision does not exist means that the
file has no version there; any other is a failure of the command.
-/
import StaleDocs.Repository.Basic
import StaleDocs.Text.Blank
import StaleDocs.Text.Search
import StaleDocs.Text.Utf8

namespace StaleDocs.Repository
open Files (FileError)

/-- What a command left behind. -/
structure CommandResult where
  succeeded : Bool
  output : List UInt8
  complaint : List UInt8

/-- The world around a working copy: its commands and its files. -/
structure WorkingCopy (m : Type → Type) where
  /-- Runs `git` with arguments, unless it cannot be started. -/
  git : List String → m (Except FileError CommandResult)
  /-- The bytes of a file below the working copy. -/
  file : String → m (Except FileError (List UInt8))

variable {m : Type → Type} [Monad m]

/-- The output of `git` with arguments. -/
def WorkingCopy.run (w : WorkingCopy m) (arguments : List String) :
    m (Except LookupError (List UInt8)) := do
  match ← w.git arguments with
  | .error fault => return .error (.file fault)
  | .ok result =>
    if result.succeeded then return .ok result.output
    else
      return .error (.command (String.intercalate " " arguments)
        (Text.trimmed (Text.decodeLossy result.complaint)))

/-- Whether the working copy belongs to a repository. -/
def WorkingCopy.isRepository (w : WorkingCopy m) : m Bool := do
  match ← w.run ["rev-parse", "--git-dir"] with
  | .ok _ => return true
  | .error _ => return false

/-- Whether a complaint says that a path or revision does not exist. -/
def saysMissing (complaint : String) : Bool :=
  ["does not exist", "exists on disk, but not in", "invalid object name", "bad revision"].any
    (Text.contains complaint)

/-- The changes of the branch against a base. -/
def WorkingCopy.diff (w : WorkingCopy m) (base : String) :
    m (Except LookupError (List UInt8)) := do
  if !(← w.isRepository) then return .error .noRepository
  match ← w.run ["diff", base ++ "...HEAD"] with
  | .ok output => return .ok output
  | .error _ => w.run ["diff", base]

/-- The staged changes, then the others. -/
def WorkingCopy.uncommitted (w : WorkingCopy m) : m (Except LookupError (List UInt8)) := do
  if !(← w.isRepository) then return .error .noRepository
  match ← w.run ["diff", "--cached"] with
  | .error fault => return .error fault
  | .ok staged =>
    match ← w.run ["diff"] with
    | .error fault => return .error fault
    | .ok unstaged => return .ok (staged ++ unstaged)

/-- A file at a revision. -/
def WorkingCopy.fileAt (w : WorkingCopy m) (path revision : String) :
    m (Except LookupError String) := do
  match ← w.run ["show", revision ++ ":" ++ path] with
  | .ok output => return .ok (Text.decodeLossy output)
  | .error (.command arguments complaint) =>
    if saysMissing complaint then return .error (.notFound path revision)
    else return .error (.command arguments complaint)
  | .error fault => return .error fault

/-- A file as it is now. -/
def WorkingCopy.current (w : WorkingCopy m) (path : String) : m (Except LookupError String) := do
  match (← w.file path).bind Files.textOf with
  | .ok text => return .ok text
  | .error .notFound => return .error (.notFound path worktree)
  | .error fault => return .error (.file fault)

/-- The repository that a working copy belongs to. -/
def WorkingCopy.repository (w : WorkingCopy m) : Repository m where
  diff := w.diff
  uncommitted := w.uncommitted
  fileAt := w.fileAt
  current := w.current

end StaleDocs.Repository
