/-
Where documentation comes from: files named one by one, or those below a directory that
patterns select. Markdown has to match a pattern of inclusion, source files are taken where
doc comments are asked for, and patterns of exclusion go before both. Of files named one by
one each has to be readable; of selected ones those that are not are left out.
-/
import StaleDocs.Docs.Binding
import StaleDocs.Docs.GoComment
import StaleDocs.Docs.Markdown
import StaleDocs.Go.Path
import StaleDocs.Ignore.Walk

namespace StaleDocs.Docs
open Files (FileError)
open Glob (Piece PatternError)

/-- Which files below a directory are documentation. -/
structure Sources where
  included : List String
  excluded : List String
  goComments : Bool
deriving DecidableEq, Repr

/-- Why documentation cannot be read. -/
inductive ScanError where
  | unreadable (path : String) (cause : FileError)
  | badPattern (pattern : String) (cause : PatternError)
  | notGo (path : String)
deriving DecidableEq, Repr

/-- A fault of a pattern in words. -/
def patternFault (pattern : String) (cause : PatternError) : String :=
  "error parsing glob '" ++ pattern ++ "': " ++ cause.message

/-- The fault in words, with its cause. -/
def ScanError.message : ScanError → String
  | .unreadable path cause => "failed to read " ++ path ++ ": " ++ cause.message
  | .badPattern pattern cause =>
    "invalid doc pattern \x60" ++ pattern ++ "\x60: " ++ patternFault pattern cause
  | .notGo path => "failed to parse " ++ path

/-- The fault in words, followed by its cause once more. -/
def ScanError.chain (e : ScanError) : String :=
  match e with
  | .unreadable _ cause => e.message ++ ": " ++ cause.message
  | .badPattern pattern cause => e.message ++ ": " ++ patternFault pattern cause
  | .notGo _ => e.message

/-- The extensions of Markdown files. -/
def markdownExtensions : List String := ["md", "markdown"]

/-- The extensions of source files. -/
def goExtensions : List String := ["go"]

/-- Patterns as they are matched. -/
def readPatterns (patterns : List String) : Except ScanError (List (List Piece)) :=
  patterns.mapM fun pattern =>
    (Glob.parse .refused pattern.toList).mapError (ScanError.badPattern pattern)

/-- A file of documentation: its path and the name it goes by. -/
structure Document where
  path : String
  label : String
deriving DecidableEq, Repr

/-- The document at some names below a directory. -/
def Document.below (directory : String) (names : List String) : Document :=
  let relative := String.intercalate "/" names
  { path := if names.isEmpty then directory else Text.joinPath directory relative
    label := Text.slashed relative }

/-- Whether a document is Markdown. -/
def Document.isMarkdown (d : Document) : Bool :=
  Text.hasExtension d.path markdownExtensions

/-- Whether patterns and the wish for doc comments select a document. -/
def Document.isWanted (d : Document) (included excluded : List (List Piece))
    (goComments : Bool) : Bool :=
  if excluded.any fun p => Glob.isMatch p d.label then false
  else if d.isMarkdown then included.any fun p => Glob.isMatch p d.label
  else goComments && Go.isSourcePath d.label

variable {m : Type → Type} [Monad m]

/-- The documents below a directory, in the order of their paths. -/
def Sources.documents (s : Sources) (files : Files m) (directory : String) :
    m (Except ScanError (List Document)) := do
  match readPatterns s.included, readPatterns s.excluded with
  | .error fault, _ | _, .error fault => return .error fault
  | .ok included, .ok excluded =>
    let found := (← Ignore.walk files directory).map (Document.below directory)
    return .ok (found.filter fun d => d.isWanted included excluded s.goComments)

/-- The text of a document. -/
def Document.text (d : Document) (files : Files m) : m (Except ScanError String) := do
  return (← files.text d.path).mapError (ScanError.unreadable d.path)

/-- The segments of a source text. -/
def goSegments (label text : String) : Except ScanError (List Segment) :=
  match goSegments? label text with
  | some segments => .ok segments
  | none => .error (.notGo label)

/-- What `read` finds in a document; nothing if it fails. -/
def Document.found {α : Type} (d : Document) (files : Files m)
    (read : Document → String → Except ScanError (List α)) : m (List α) := do
  match (← d.text files).bind (read d) with
  | .ok found => return found
  | .error _ => return []

/-- The segments of a selected document's text. -/
def Document.segments (d : Document) (text : String) : Except ScanError (List Segment) :=
  if d.isMarkdown then .ok (markdownSegments d.label text) else goSegments d.label text

/-- The bindings of a selected document's text, if it is Markdown. -/
def Document.bindings (d : Document) (text : String) : Except ScanError (List Binding) :=
  .ok (if d.isMarkdown then Docs.bindings d.label text else [])

/-- What `read` finds in the documents below a directory. -/
def Sources.collect {α : Type} (s : Sources) (files : Files m) (directory : String)
    (read : Document → String → Except ScanError (List α)) : m (Except ScanError (List α)) := do
  match ← s.documents files directory with
  | .error fault => return .error fault
  | .ok documents => return .ok (← documents.mapM fun d => d.found files read).flatten

/-- The segments of the documents below a directory. -/
def Sources.segments (s : Sources) (files : Files m) (directory : String) :
    m (Except ScanError (List Segment)) :=
  s.collect files directory Document.segments

/-- The bindings of the documents below a directory. -/
def Sources.bindings (s : Sources) (files : Files m) (directory : String) :
    m (Except ScanError (List Binding)) :=
  s.collect files directory Document.bindings

/-- A document named by its path. -/
def Document.named (path : String) : Document := ⟨path, Text.slashed path⟩

/-- What `read` finds in files named one by one, up to the first fault. -/
def collectFiles {α : Type} (files : Files m)
    (read : Document → String → Except ScanError (List α)) :
    List String → m (Except ScanError (List α))
  | [] => return .ok []
  | path :: paths => do
    let d := Document.named path
    match (← d.text files).bind (read d) with
    | .error fault => return .error fault
    | .ok found => return (← collectFiles files read paths).map (found ++ ·)

/-- The segments of files named one by one; all that are not source are read as Markdown. -/
def segmentsOfFiles (files : Files m) (paths : List String) :
    m (Except ScanError (List Segment)) :=
  collectFiles files
    (fun d text =>
      if Text.hasExtension d.path goExtensions then goSegments d.label text
      else .ok (markdownSegments d.label text))
    paths

/-- The bindings of files named one by one, all read as Markdown. -/
def bindingsOfFiles (files : Files m) (paths : List String) :
    m (Except ScanError (List Binding)) :=
  collectFiles files (fun d text => .ok (Docs.bindings d.label text)) paths

end StaleDocs.Docs
