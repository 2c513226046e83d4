/-
Settings as a record. Every field has its standard value where it is missing; the key and the
address of the judge are left out where they are empty.
-/
import StaleDocs.Json.Record
import StaleDocs.Settings.Basic
import StaleDocs.Yaml.Printer
import StaleDocs.Yaml.Record

namespace StaleDocs.Settings
open Record (Content Reader defaulted)

variable {ν : Type}

/-- Reads the access to a judge. -/
def JudgeAccess.read (r : Reader ν) (v : ν) : Option JudgeAccess := do
  match ← r.fields? ["provider", "model", "api_key", "base_url", "timeout_secs"] v with
  | [provider, model, apiKey, baseUrl, timeout] =>
    return { provider := ← defaulted JudgeAccess.standard.provider r.text? provider
             model := ← defaulted JudgeAccess.standard.model r.text? model
             apiKey := ← defaulted "" r.text? apiKey
             baseUrl := ← defaulted "" r.text? baseUrl
             timeout := ← defaulted JudgeAccess.standard.timeout r.nat? timeout }
  | _ => none

/-- Reads which files are documentation. -/
def readDocs (r : Reader ν) (v : ν) : Option Docs.Sources := do
  match ← r.fields? ["include", "exclude", "go_comments"] v with
  | [included, excluded, goComments] =>
    return { included := ← defaulted standardDocs.included r.texts? included
             excluded := ← defaulted [] r.texts? excluded
             goComments := ← defaulted false r.bool? goComments }
  | _ => none

/-- Reads the rules. -/
def Rules.read (r : Reader ν) (v : ν) : Option Rules := do
  match ← r.fields? ["fail_on_inconsistent", "confidence_threshold"] v with
  | [failOnInconsistent, threshold] =>
    return { failOnInconsistent := ← defaulted true r.bool? failOnInconsistent
             threshold := ← defaulted Rules.standard.threshold r.float? threshold }
  | _ => none

/-- Reads a form of reports. -/
def readFormat (r : Reader ν) (v : ν) : Option Report.Format := do
  Report.Format.ofWord? (← r.word? v)

/-- Reads how a report is written. -/
def readOutput (r : Reader ν) (v : ν) : Option Report.Format := do
  match ← r.fields? ["format"] v with
  | [format] => defaulted .text (readFormat r) format
  | _ => none

/-- Reads settings. -/
def read (r : Reader ν) (v : ν) : Option Settings := do
  match ← r.fields? ["base", "llm", "docs", "rules", "output"] v with
  | [base, judge, docs, rules, output] =>
    return { base := ← defaulted standard.base r.text? base
             judge := ← defaulted .standard (JudgeAccess.read r) judge
             docs := ← defaulted standardDocs (readDocs r) docs
             rules := ← defaulted .standard (Rules.read r) rules
             format := ← defaulted .text (readOutput r) output }
  | _ => none

/-- A field with a text, unless that is empty. -/
def textField (name value : String) : List (String × Content) :=
  if value.isEmpty then [] else [(name, .text value)]

/-- Access to a judge as the fields of a record. -/
def JudgeAccess.fields (a : JudgeAccess) : List (String × Content) :=
  [("provider", .text a.provider), ("model", .text a.model)] ++
    textField "api_key" a.apiKey ++ textField "base_url" a.baseUrl ++
    [("timeout_secs", .nat a.timeout)]

/-- Settings as the fields of a record. -/
def fields (s : Settings) : List (String × Content) :=
  [("base", .text s.base), ("llm", .record s.judge.fields),
    ("docs", .record [("include", .texts s.docs.included), ("exclude", .texts s.docs.excluded),
      ("go_comments", .bool s.docs.goComments)]),
    ("rules", .record [("fail_on_inconsistent", .bool s.rules.failOnInconsistent),
      ("confidence_threshold", .float s.rules.threshold)]),
    ("output", .record [("format", .text s.format.word)])]

/-- Settings as JSON. -/
def toJson (s : Settings) : Json.Value := .ofContent (.record s.fields)

/-- The settings that a JSON value describes. -/
def ofJson? : Json.Read Settings := read Json.reader

/-- The notations of settings. -/
inductive Form where
  | yaml
  | json
deriving DecidableEq, Repr

/-- The settings that a text describes. -/
def parse? (form : Form) (text : String) : Option Settings :=
  match form with
  | .yaml => do read Yaml.reader (.ofDocument (← Yaml.Node.parse? text))
  | .json => (Json.Value.parse? text).bind ofJson?

/-- The text that describes settings. -/
def render (s : Settings) (form : Form) : String :=
  match form with
  | .yaml => Yaml.render s.fields
  | .json => s.toJson.pretty

end StaleDocs.Settings
