/-
Changed symbols as JSON records. Code that is missing is empty.
-/
import StaleDocs.Diff.Json
import StaleDocs.Symbol.Basic

namespace StaleDocs
open Json (Value Read)

/-- The kind of declaration that a word names. -/
def Go.SymbolKind.ofJson? : Read Go.SymbolKind :=
  Json.readWord ([.function, .type, .const, .var].map fun k => (Go.SymbolKind.word k, k))

/-- A symbol as a record. -/
def Symbol.toJson (s : Symbol) : Value :=
  .record [("file", .text s.file), ("name", .text s.name), ("kind", .text s.kind.word),
    ("change_kind", s.change.toJson), ("start_line", .ofNat s.startLine),
    ("end_line", .ofNat s.endLine), ("old_code", .text s.oldCode), ("new_code", .text s.newCode)]

/-- The symbol that a record describes. -/
def Symbol.ofJson? : Read Symbol := fun v => do
  match ← Json.fields?
      ["file", "name", "kind", "change_kind", "start_line", "end_line", "old_code", "new_code"]
      v with
  | [file, name, kind, change, startLine, endLine, oldCode, newCode] =>
    return { file := ← Record.required Json.readText file
             name := ← Record.required Json.readText name
             kind := ← Record.required Go.SymbolKind.ofJson? kind
             change := ← Record.required Diff.ChangeKind.ofJson? change
             startLine := ← Record.required Json.readNat startLine
             endLine := ← Record.required Json.readNat endLine
             oldCode := ← Record.defaulted "" Json.readText oldCode
             newCode := ← Record.defaulted "" Json.readText newCode }
  | _ => none

end StaleDocs
