/-
Segments and bindings as JSON records. Without a kind, a segment is one of Markdown.
-/
import StaleDocs.Docs.Binding
import StaleDocs.Symbol.Json

namespace StaleDocs.Docs
open Json (Value Read)

/-- The kind of documentation that a word names. -/
def DocKind.ofJson? : Read DocKind :=
  Json.readWord ([.markdown, .goComment].map fun k => (DocKind.word k, k))

/-- A segment as a record. -/
def Segment.toJson (s : Segment) : Value :=
  .record [("file", .text s.file), ("heading", .text s.heading), ("level", .ofNat s.level),
    ("start_line", .ofNat s.startLine), ("end_line", .ofNat s.endLine),
    ("content", .text s.content), ("kind", .text s.kind.word)]

/-- The segment that a record describes. -/
def Segment.ofJson? : Read Segment := fun v => do
  match ← Json.fields?
      ["file", "heading", "level", "start_line", "end_line", "content", "kind"] v with
  | [file, heading, level, startLine, endLine, content, kind] =>
    return { file := ← Record.required Json.readText file
             heading := ← Record.required Json.readText heading
             level := ← Record.required Json.readNat level
             startLine := ← Record.required Json.readNat startLine
             endLine := ← Record.required Json.readNat endLine
             content := ← Record.required Json.readText content
             kind := ← Record.defaulted .markdown DocKind.ofJson? kind }
  | _ => none

/-- A binding as a record. -/
def Binding.toJson (b : Binding) : Value :=
  .record [("doc_file", .text b.docFile), ("doc_line", .ofNat b.docLine),
    ("end_line", .ofNat b.endLine), ("code_file", .text b.codeFile), ("kind", .text b.kind.word),
    ("symbol", .text b.symbol), ("doc_content", .text b.docContent)]

/-- The binding that a record describes. -/
def Binding.ofJson? : Read Binding := fun v => do
  match ← Json.fields?
      ["doc_file", "doc_line", "end_line", "code_file", "kind", "symbol", "doc_content"] v with
  | [docFile, docLine, endLine, codeFile, kind, symbol, docContent] =>
    return { docFile := ← Record.required Json.readText docFile
             docLine := ← Record.required Json.readNat docLine
             endLine := ← Record.required Json.readNat endLine
             codeFile := ← Record.required Json.readText codeFile
             kind := ← Record.required Go.SymbolKind.ofJson? kind
             symbol := ← Record.required Json.readText symbol
             docContent := ← Record.required Json.readText docContent }
  | _ => none

end StaleDocs.Docs
