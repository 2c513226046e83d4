/-
Settings: what changes are compared with, which judge is asked, which files are documentation,
what counts as a violation, and how a report is written.
-/
import StaleDocs.Check.Run
import StaleDocs.Docs.Sources
import StaleDocs.Judge.Completions
import StaleDocs.Report.Format
import StaleDocs.Text.Blank

namespace StaleDocs

/-- How a judge is reached. -/
structure Settings.JudgeAccess where
  provider : String
  model : String
  /-- The key itself, or the name of a variable that holds it. -/
  apiKey : String
  baseUrl : String
  /-- How many seconds an answer may take. -/
  timeout : Nat

/-- What counts as a violation, and whether one makes a check fail. -/
structure Settings.Rules where
  failOnInconsistent : Bool
  threshold : Float

/-- The settings of a check. -/
structure Settings where
  base : String
  judge : Settings.JudgeAccess
  docs : Docs.Sources
  rules : Settings.Rules
  format : Report.Format

namespace Settings

/-- The only provider of judges. -/
def knownProvider : String := "openai"

/-- Access to a judge where nothing is set: there is no key. -/
def JudgeAccess.standard : JudgeAccess where
  provider := knownProvider
  model := "gpt-4o-mini"
  apiKey := ""
  baseUrl := ""
  timeout := 30

/-- The documentation where nothing is set. -/
def standardDocs : Docs.Sources where
  included := ["README.md", "docs/**/*.md"]
  excluded := []
  goComments := false

/-- The rules where nothing is set. -/
def Rules.standard : Rules := ⟨true, Check.defaultThreshold⟩

/-- The settings where nothing is set. -/
def standard : Settings := ⟨"main", .standard, standardDocs, .standard, .text⟩

/-- Whether there is a key for a judge. -/
def JudgeAccess.isConfigured (a : JudgeAccess) : Bool :=
  !Text.isBlankText a.apiKey.toList

/-- Why settings cannot be used. -/
inductive Fault where
  | emptyBase
  | unsupportedProvider (name : String)
  | noTimeout
  | noDocumentation
  | thresholdOutOfRange
deriving DecidableEq, Repr

/-- The fault in words. -/
def Fault.message : Fault → String
  | .emptyBase => "base revision must not be empty"
  | .unsupportedProvider name =>
    "unsupported llm.provider \x60" ++ name ++ "\x60 (expected \x60" ++ knownProvider ++ "\x60)"
  | .noTimeout => "llm.timeout_secs must be positive"
  | .noDocumentation => "at least one documentation pattern must be specified"
  | .thresholdOutOfRange => "rules.confidence_threshold must be within [0, 1]"

/-- Whether a threshold is a number from zero to one. -/
def Rules.hasThreshold (r : Rules) : Bool := 0 ≤ r.threshold && r.threshold ≤ 1

/-- The first fault of settings, if they have one. -/
def fault? (s : Settings) : Option Fault :=
  if Text.isBlankText s.base.toList then some .emptyBase
  else if s.judge.provider ≠ knownProvider then some (.unsupportedProvider s.judge.provider)
  else if s.judge.timeout = 0 then some .noTimeout
  else if s.docs.included.isEmpty && !s.docs.goComments then some .noDocumentation
  else if !s.rules.hasThreshold then some .thresholdOutOfRange
  else none

end Settings
end StaleDocs
