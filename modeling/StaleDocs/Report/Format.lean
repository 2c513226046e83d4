/-
The forms in which a report is written: for a terminal, as JSON, and as the workflow commands
by which a job on GitHub marks lines of files.
-/
import StaleDocs.Check.Result

namespace StaleDocs.Report
open Check (Report Result)

/-- A form of a report. -/
inductive Format where
  | text
  | json
  | githubActions
deriving DecidableEq, Repr

/-- All forms. -/
def Format.all : List Format := [.text, .json, .githubActions]

/-- The word for a form. -/
def Format.word : Format → String
  | .text => "text"
  | .json => "json"
  | .githubActions => "github-actions"

/-- The form that a word names. -/
def Format.ofWord? (s : String) : Option Format :=
  Format.all.find? fun f => f.word = s

/-- Lines, each with its line end. -/
def ofLines (lines : List String) : String :=
  String.join (lines.map (· ++ "\n"))

/-- A line of equality signs. -/
def rule : String := "========================================"

/-- The mark of a result. -/
def status (r : Result) (threshold : Float) : String :=
  if r.isViolation threshold then "[FAIL]"
  else if !r.related then "[SKIP]"
  else if !r.consistent then "[WARN]"
  else "[PASS]"

/-- The lines on a result below its mark. -/
def details (r : Result) : List String :=
  ["  Doc:        " ++ r.segment.file ++ ":" ++ toString r.segment.startLine ++
      " (" ++ r.segment.heading ++ ")",
    "  Code:       " ++ r.symbol.file ++ ":" ++ toString r.symbol.startLine ++ " " ++
      r.symbol.name ++ " (" ++ r.symbol.kind.word ++ ", " ++ r.symbol.change.word ++ ")",
    "  Confidence: " ++ Decimal.writeWhole (r.confidence * 100) ++ "%",
    "  Reason:     " ++ r.reason] ++
  (if r.suggestion.isEmpty then [] else ["  Suggestion: " ++ r.suggestion]) ++ [""]

/-- The lines on the result with a number. -/
def resultLines (threshold : Float) (numbered : Result × Nat) : List String :=
  let (r, n) := numbered
  ("[" ++ toString n ++ "] " ++ status r threshold) :: details r

/-- The lines above the results in a terminal. -/
def opening (r : Report) : List String :=
  ["", "DocDrift Check Report", rule, ""] ++
  (if r.results.isEmpty then
    ["No documentation appears to be affected by these changes", ""] else [])

/-- The lines below the results in a terminal. -/
def closing (r : Report) : List String :=
  [rule,
    "Summary: " ++ toString r.totalSymbols ++ " symbols, " ++ toString r.totalSegments ++
      " segments, " ++ toString r.relevantPairs ++ " pairs, " ++ toString r.inconsistent ++
      " inconsistent"] ++
  (if r.skippedFiles = 0 then []
    else ["Skipped: " ++ toString r.skippedFiles ++ " source files could not be parsed"]) ++
  ["Time: " ++ toString r.milliseconds ++ "ms"]

/-- A report for a terminal. -/
def text (r : Report) (threshold : Float) : String := ofLines (
  opening r ++ (r.results.zipIdx 1).flatMap (resultLines threshold) ++ closing r)

/-- A character as it is written in the message of a workflow command. -/
def escapeMessageChar (c : Char) : List Char :=
  match c with
  | '%' => "%25".toList
  | '\r' => "%0D".toList
  | '\n' => "%0A".toList
  | c => [c]

/-- A character as it is written in a property of a workflow command. -/
def escapePropertyChar (c : Char) : List Char :=
  match c with
  | ':' => "%3A".toList
  | ',' => "%2C".toList
  | c => escapeMessageChar c

/-- A message of a workflow command. -/
def escapeMessage (s : String) : String := String.ofList (s.toList.flatMap escapeMessageChar)

/-- A property of a workflow command. -/
def escapeProperty (s : String) : String := String.ofList (s.toList.flatMap escapePropertyChar)

/-- What is said about a violation. -/
def violationMessage (r : Result) : String :=
  r.symbol.name ++ " (" ++ r.symbol.file ++ "): " ++ r.reason ++
    (if r.suggestion.isEmpty then "" else "\nSuggestion: " ++ r.suggestion)

/-- The command that marks a violation. -/
def errorCommand (r : Result) : String :=
  "::error file=" ++ escapeProperty r.segment.file ++ ",line=" ++ toString r.segment.startLine ++
    ",title=" ++ escapeProperty "Documentation out of date" ++ "::" ++
    escapeMessage (violationMessage r)

/-- The command that sums a report up. -/
def summaryCommand (r : Report) : String :=
  if r.hasInconsistencies then
    "::error::Found " ++ toString r.inconsistent ++ " documentation inconsistencies"
  else "::notice::Documentation is consistent with the code changes"

/-- A report as workflow commands. -/
def annotations (r : Report) (threshold : Float) : String := ofLines (
  (r.results.filter fun result => result.isViolation threshold).map errorCommand ++
    [summaryCommand r])

/-- A report in some form. -/
def render (r : Report) (format : Format) (threshold : Float) : String :=
  match format with
  | .text => text r threshold
  | .json => r.toJson.pretty
  | .githubActions => annotations r threshold

end StaleDocs.Report
