/-
Changed symbols: names that a diff touches through their declarations.
-/
import StaleDocs.Diff.Change
import StaleDocs.Go.Declaration

namespace StaleDocs
open Diff (ChangeKind)
open Go (SymbolKind)

/-- A name whose declaration changed. The lines are those of the new file, or of the old one
if the file was deleted. -/
structure Symbol where
  file : String
  name : String
  kind : SymbolKind
  change : ChangeKind
  startLine : Nat
  endLine : Nat
  oldCode : String
  newCode : String
deriving DecidableEq, Repr

/-- The latest code: the new code, or the old one where there is none. -/
def Symbol.code (s : Symbol) : String :=
  if s.newCode.isEmpty then s.oldCode else s.newCode

end StaleDocs
