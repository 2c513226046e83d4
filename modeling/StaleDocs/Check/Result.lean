/-
Results of a check: one for each symbol and segment that were compared, and the report over
all of them.
-/
import StaleDocs.Judge.Verdict
import StaleDocs.Relevance.Json

namespace StaleDocs.Check
open Docs (Segment)
open Json (Value Read)

/-- What was found out about a symbol and a segment. -/
structure Result where
  symbol : Symbol
  segment : Segment
  related : Bool
  consistent : Bool
  confidence : Float
  /-- The confidence that the two belong together. -/
  matchConfidence : Float
  reason : String
  suggestion : String

/-- Whether the segment is about the symbol and disagrees with it, with enough confidence. -/
def Result.isViolation (r : Result) (threshold : Float) : Bool :=
  r.related && !r.consistent && threshold ≤ r.confidence

/-- All results of a check. -/
structure Report where
  totalSymbols : Nat
  totalSegments : Nat
  relevantPairs : Nat
  inconsistent : Nat
  /-- Source files that could not be read. -/
  skippedFiles : Nat
  results : List Result
  milliseconds : Nat

/-- Whether anything disagrees. -/
def Report.hasInconsistencies (r : Report) : Bool := 0 < r.inconsistent

/-- A result as a record. -/
def Result.toJson (r : Result) : Value :=
  .record ([("symbol", r.symbol.toJson), ("segment", r.segment.toJson),
    ("related", .bool r.related), ("consistent", .bool r.consistent),
    ("confidence", .ofFloat r.confidence), ("match_confidence", .ofFloat r.matchConfidence),
    ("reason", .text r.reason)] ++ Judge.textField "suggestion" r.suggestion)

/-- The result that a record describes. -/
def Result.ofJson? : Read Result := fun v => do
  match ← Json.fields? ["symbol", "segment", "related", "consistent", "confidence",
      "match_confidence", "reason", "suggestion"] v with
  | [symbol, segment, related, consistent, confidence, matchConfidence, reason, suggestion] =>
    return { symbol := ← Record.required Symbol.ofJson? symbol
             segment := ← Record.required Docs.Segment.ofJson? segment
             related := ← Record.required Json.readBool related
             consistent := ← Record.required Json.readBool consistent
             confidence := ← Record.required Json.readFloat confidence
             matchConfidence := ← Record.required Json.readFloat matchConfidence
             reason := ← Record.required Json.readText reason
             suggestion := ← Record.defaulted "" Json.readText suggestion }
  | _ => none

/-- A report as a record. -/
def Report.toJson (r : Report) : Value :=
  .record [("total_symbols", .ofNat r.totalSymbols), ("total_segments", .ofNat r.totalSegments),
    ("relevant_pairs", .ofNat r.relevantPairs), ("inconsistent", .ofNat r.inconsistent),
    ("skipped_files", .ofNat r.skippedFiles), ("results", Json.writeList Result.toJson r.results),
    ("execution_time_ms", .ofNat r.milliseconds)]

/-- The report that a record describes. -/
def Report.ofJson? : Read Report := fun v => do
  match ← Json.fields? ["total_symbols", "total_segments", "relevant_pairs", "inconsistent",
      "skipped_files", "results", "execution_time_ms"] v with
  | [symbols, segments, pairs, inconsistent, skipped, results, milliseconds] =>
    return { totalSymbols := ← Record.required Json.readNat symbols
             totalSegments := ← Record.required Json.readNat segments
             relevantPairs := ← Record.required Json.readNat pairs
             inconsistent := ← Record.required Json.readNat inconsistent
             skippedFiles := ← Record.required Json.readNat skipped
             results := ← Record.required (Json.readList Result.ofJson?) results
             milliseconds := ← Record.required Json.readNat milliseconds }
  | _ => none

end StaleDocs.Check
