/-
Verdicts: whether a piece of documentation is about a piece of code and agrees with it.
-/
import StaleDocs.Json.Record
import StaleDocs.Relevance.Score

namespace StaleDocs.Judge
open Json (Value Read)

/-- An answer about one segment and one symbol. -/
structure Verdict where
  related : Bool
  consistent : Bool
  confidence : Float
  reason : String
  suggestion : String

/-- A verdict with a confidence from zero to one, where what is not related is consistent. -/
def Verdict.normalized (v : Verdict) : Verdict :=
  { v with
    confidence := if v.confidence.isFinite then Relevance.clamp v.confidence else 0
    consistent := v.consistent || !v.related }

/-- A text as a field, unless it is empty. -/
def textField (name s : String) : List (String × Value) :=
  if s.isEmpty then [] else [(name, .text s)]

/-- A verdict as a record. -/
def Verdict.toJson (v : Verdict) : Value :=
  .record ([("related", .bool v.related), ("consistent", .bool v.consistent),
    ("confidence", .ofFloat v.confidence), ("reason", .text v.reason)] ++
    textField "suggestion" v.suggestion)

/-- The verdict that a record describes; without other word it is related and consistent. -/
def Verdict.ofJson? : Read Verdict := fun v => do
  match ← Json.fields? ["related", "consistent", "confidence", "reason", "suggestion"] v with
  | [related, consistent, confidence, reason, suggestion] =>
    return { related := ← Record.defaulted true Json.readBool related
             consistent := ← Record.defaulted true Json.readBool consistent
             confidence := ← Record.defaulted 0 Json.readFloat confidence
             reason := ← Record.defaulted "" Json.readText reason
             suggestion := ← Record.defaulted "" Json.readText suggestion }
  | _ => none

end StaleDocs.Judge
