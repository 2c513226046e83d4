/-
Which symbols a diff changes. In an added or deleted file all of them do; in a modified file
those whose declarations have a line in the new range of some hunk. A file that cannot be
looked up or read is skipped; the old version of a modified file may be missing.
-/
import StaleDocs.Diff.Parser
import StaleDocs.Go.Path
import StaleDocs.Repository.Basic
import StaleDocs.Symbol.Basic

namespace StaleDocs.Extraction
open Diff (ChangeKind FileChange Malformed)
open Go (Declaration)
open Repository (LookupError)

/-- Why the symbols of a file cannot be told. -/
inductive FileFault where
  | unreadable (path : String)
  | lookup (fault : LookupError)
deriving DecidableEq, Repr

/-- Counts of one extraction. -/
structure Stats where
  filesSeen : Nat
  filesSkipped : Nat
  symbols : Nat
deriving DecidableEq, Repr

/-- The changes whose new path is one of source. -/
def sourceChanges (changes : List FileChange) : List FileChange :=
  changes.filter fun c => Go.isSourcePath c.newPath

/-- The declarations of a file's text. -/
def declarations (path text : String) : Except FileFault (List Declaration) :=
  match Go.declarations? text with
  | some ds => .ok ds
  | none => .error (.unreadable path)

/-- The symbol of one name of a declaration. -/
def symbolOf (path : String) (change : ChangeKind) (oldCode newCode : String) (d : Declaration)
    (name : String) : Symbol :=
  { file := path
    name := name
    kind := d.kind
    change := change
    startLine := d.span.first
    endLine := d.span.last
    oldCode := oldCode
    newCode := newCode }

/-- The symbols of a file that is there as a whole, on one side or the other. -/
def wholeFile (path : String) (change : ChangeKind) (ds : List Declaration) : List Symbol :=
  ds.flatMap fun d =>
    let (oldCode, newCode) := match change with
      | .deleted => (d.code, "")
      | _ => ("", d.code)
    d.names.map (symbolOf path change oldCode newCode d)

/-- The code of the declaration that binds a name, or nothing. -/
def codeIn (ds : List Declaration) (d : Declaration) (name : String) : String :=
  match Declaration.find? ds name d.kind with
  | some old => old.code
  | none => ""

/-- The declarations that some hunk of a change touches. -/
def touched (c : FileChange) (ds : List Declaration) : List Declaration :=
  ds.filter fun d => d.span.overlaps c.hunks

/-- The symbols of touched declarations, each with its code among the old declarations. -/
def modifiedSymbols (path : String) (old touched : List Declaration) : List Symbol :=
  touched.flatMap fun d =>
    d.names.map fun name => symbolOf path .modified (codeIn old d name) d.code d name

/-- The declarations of an old text; none if it cannot be looked up or read. -/
def oldDeclarations (text : Except LookupError String) : List Declaration :=
  match text with
  | .ok text => (Go.declarations? text).getD []
  | .error _ => []

variable {m : Type → Type} [Monad m]

/-- The symbols of a modified file. The old version is looked up only if some declaration is
touched. -/
def modifiedFile (repo : Repository m) (base : String) (c : FileChange) :
    m (Except FileFault (List Symbol)) := do
  match ← repo.current c.newPath with
  | .error fault => return .error (.lookup fault)
  | .ok text =>
    match declarations c.newPath text with
    | .error fault => return .error fault
    | .ok ds =>
      match touched c ds with
      | [] => return .ok []
      | hit => do
        let old ← repo.fileAt c.oldPath base
        return .ok (modifiedSymbols c.newPath (oldDeclarations old) hit)

/-- The symbols of a file whose text was looked up. -/
def ofText (path : String) (change : ChangeKind) (text : Except LookupError String) :
    Except FileFault (List Symbol) :=
  match text with
  | .error fault => .error (.lookup fault)
  | .ok text => (declarations path text).map (wholeFile path change)

/-- The symbols that a change of one file changes. -/
def ofChange (repo : Repository m) (base : String) (c : FileChange) :
    m (Except FileFault (List Symbol)) := do
  match c.kind with
  | .added => return ofText c.newPath .added (← repo.current c.newPath)
  | .deleted => return ofText c.oldPath .deleted (← repo.fileAt c.oldPath base)
  | .modified => modifiedFile repo base c

/-- The symbols of changes in order, and how many of them were skipped. -/
def ofChanges (repo : Repository m) (base : String) :
    List FileChange → m (List Symbol × Nat)
  | [] => return ([], 0)
  | c :: cs => do
    let first ← ofChange repo base c
    let (symbols, skipped) ← ofChanges repo base cs
    match first with
    | .ok found => return (found ++ symbols, skipped)
    | .error _ => return (symbols, skipped + 1)

/-- The symbols that a diff changes. -/
def extract (repo : Repository m) (base diff : String) :
    m (Except Malformed (List Symbol × Stats)) := do
  match Diff.parse diff with
  | .error fault => return .error fault
  | .ok changes =>
    let sources := sourceChanges changes
    let (symbols, skipped) ← ofChanges repo base sources
    return .ok (symbols, ⟨sources.length, skipped, symbols.length⟩)

end StaleDocs.Extraction
