/-
Pairings as JSON records.
-/
import StaleDocs.Docs.Json
import StaleDocs.Relevance.Pairing

namespace StaleDocs.Relevance
open Json (Value Read)

/-- A pairing as a record. -/
def Pairing.toJson (p : Pairing Float) : Value :=
  .record [("symbol", p.symbol.toJson), ("segment", p.segment.toJson),
    ("confidence", .ofFloat p.confidence), ("reason", .text p.reason)]

/-- The pairing that a record describes. -/
def Pairing.ofJson? : Read (Pairing Float) := fun v => do
  match ← Json.fields? ["symbol", "segment", "confidence", "reason"] v with
  | [symbol, segment, confidence, reason] =>
    return { symbol := ← Record.required Symbol.ofJson? symbol
             segment := ← Record.required Docs.Segment.ofJson? segment
             confidence := ← Record.required Json.readFloat confidence
             reason := ← Record.required Json.readText reason }
  | _ => none

end StaleDocs.Relevance
