/-
What a judge is told: the system prompts of its two tasks, and the prompts that put a question
to it.
-/
import StaleDocs.Judge.Basic

namespace StaleDocs.Judge
open Docs (Segment)

/-- Lines of a prompt. -/
def promptOf (lines : List String) : String := String.intercalate "\n" lines

/-- What the judge of consistency is told first. -/
def consistencyPrompt : String := promptOf [
  "You are a code-documentation consistency checker. Decide whether the given documentation " ++
    "matches the code implementation.",
  "",
  "First decide whether the documentation is describing THIS specific code symbol.",
  "",
  "Answer in JSON with these fields:",
  "- related: boolean, whether the documentation is specifically about this symbol",
  "- consistent: boolean, whether documentation and code agree (true when not related)",
  "- confidence: number between 0 and 1",
  "- reason: string explaining the judgment",
  "- suggestion: string with a fix when inconsistent",
  "",
  "Guidelines:",
  "1. If the documentation is about a different symbol or topic, set related=false and " ++
    "consistent=true.",
  "2. Only mark inconsistent when the documentation IS about this code but describes it " ++
    "incorrectly.",
  "3. Judge business logic, not code style.",
  "4. Values, thresholds and conditions must match exactly.",
  "5. Documented behaviour missing from the code is inconsistent.",
  "6. Extra behaviour in the code that the documentation omits is acceptable."]

/-- What the judge of relevance is told first. -/
def relevancePrompt : String := promptOf [
  "You are a code-documentation relevance expert. Decide which documentation segments " ++
    "specifically describe a given code symbol.",
  "",
  "Answer in JSON: \x7b\"relevant\": [indices of relevant segments]\x7d",
  "",
  "Guidelines:",
  "1. A segment is relevant if it describes THIS function, type, constant or variable.",
  "2. A segment is relevant if it contains usage examples of THIS symbol.",
  "3. A segment is not relevant if it only mentions the name in passing.",
  "4. A segment is not relevant if it describes a different, similarly named symbol.",
  "5. When in doubt, include the segment."]

/-- The mark before and after a block of code. -/
def codeMark : String := "\x60\x60\x60"

/-- The prompt that asks whether documentation and code agree. -/
def Question.prompt (q : Question) : String := promptOf [
  "Check whether the following documentation matches the code implementation.",
  "",
  "## Documentation",
  q.docContent,
  "",
  "## Code Implementation",
  "File: " ++ q.codeFile,
  "Symbol: " ++ q.codeSymbol,
  "",
  codeMark ++ "go",
  q.codeContent,
  codeMark,
  "",
  "Step 1: decide whether this documentation specifically describes \"" ++ q.codeSymbol ++ "\".",
  "Step 2: if it does not, answer \x7b\"related\": false, \"consistent\": true, ...\x7d.",
  "Step 3: if it does, check whether the description matches the implementation.",
  "",
  "Answer in JSON."]

/-- How many characters of a candidate's content are shown. -/
def previewLength : Nat := 500

/-- The start of a content, with three points where it was cut. -/
def preview (content : String) : String :=
  match content.toList.drop previewLength with
  | [] => content
  | _ => String.ofList (content.toList.take previewLength) ++ "..."

/-- A candidate with its position. -/
def candidateLines (candidate : Segment × Nat) : List String :=
  let (segment, position) := candidate
  ["[" ++ toString position ++ "] " ++ segment.file ++ " - " ++ segment.heading,
    preview segment.content, ""]

/-- The prompt that asks which candidates are about a symbol. -/
def relevanceQuestion (symbol : Symbol) (candidates : List Segment) : String := promptOf (
  ["## Code Symbol",
    "Name: " ++ symbol.name,
    "Kind: " ++ symbol.kind.word,
    "File: " ++ symbol.file,
    "",
    codeMark ++ "go",
    symbol.code,
    codeMark,
    "",
    "## Candidate Documentation Segments",
    ""] ++
  candidates.zipIdx.flatMap candidateLines ++
  ["Which segments (by index) specifically describe this code symbol?",
    "Answer in JSON: \x7b\"relevant\": [list of indices]\x7d"])

end StaleDocs.Judge
