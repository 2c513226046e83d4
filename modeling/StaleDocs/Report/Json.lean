/-
Forms of a report as JSON: each by its word.
-/
import StaleDocs.Report.Format

namespace StaleDocs.Report

/-- The form that a word names. -/
def Format.ofJson? : Json.Read Format :=
  Json.readWord (Format.all.map fun f => (f.word, f))

end StaleDocs.Report
