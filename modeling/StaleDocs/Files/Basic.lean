/-
Files and directories: trees of them, why they cannot be read or written, and a world of files
whose operations have the effects of a monad.
-/
import StaleDocs.Text.Utf8

namespace StaleDocs.Files

/-- Why a file cannot be read or written. -/
inductive FileError where
  | notFound
  | isDirectory
  | notADirectory
  | notText
  | other (text : String)
deriving DecidableEq, Repr

/-- The fault in words. -/
def FileError.message : FileError → String
  | .notFound => "No such file or directory (os error 2)"
  | .isDirectory => "Is a directory (os error 21)"
  | .notADirectory => "Not a directory (os error 20)"
  | .notText => "stream did not contain valid UTF-8"
  | .other text => text

/-- A file with its content, or a directory with what is in it under each name. -/
inductive FileTree (α : Type) where
  | file (content : α)
  | directory (entries : List (String × FileTree α))

/-- What can be at a path. -/
inductive Kind where
  | file
  | directory
deriving DecidableEq, Repr

/-- Whether a tree is a file or a directory. -/
def FileTree.kind {α : Type} : FileTree α → Kind
  | .file _ => .file
  | .directory _ => .directory

end StaleDocs.Files

namespace StaleDocs
open Files (FileError FileTree Kind)

/-- Files that are reached by paths, with the effects of `m`. -/
structure Files (m : Type → Type) where
  /-- The bytes of a file. -/
  read : String → m (Except FileError (List UInt8))
  /-- Makes these bytes the content of a file. -/
  write : String → List UInt8 → m (Except FileError Unit)
  /-- What is at a path, if anything is. -/
  kind? : String → m (Option Kind)
  /-- The names of everything at and below a path, if anything is there. -/
  names? : String → m (Option (FileTree Unit))
  /-- The names that lead from the root to what is at a path, if anything is. -/
  place? : String → m (Option (List String))

variable {m : Type → Type} [Monad m]

/-- The text of bytes, if they are text. -/
def Files.textOf (bytes : List UInt8) : Except FileError String :=
  match Text.decodeUtf8 bytes with
  | (cs, []) => .ok (String.ofList cs)
  | _ => .error .notText

/-- The text of a file. -/
def Files.text (files : Files m) (path : String) : m (Except FileError String) := do
  return (← files.read path).bind Files.textOf

end StaleDocs
