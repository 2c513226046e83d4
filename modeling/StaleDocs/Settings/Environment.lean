/-
What the environment adds to settings. A key may be a reference to a variable; where that has
no value, or there is no key at all, two variables are tried in turn. The address of the judge
is only taken where none is set, the model wherever one is given. Blank values count as none.
-/
import StaleDocs.Settings.Basic
import StaleDocs.Text.Search

namespace StaleDocs.Settings

/-- The values of variables. -/
abbrev Environment := String → Option String

/-- The value of a variable, unless it is blank. -/
def valueOf (env : Environment) (name : String) : Option String :=
  (env name).filter fun v => !Text.isBlankText v.toList

/-- The variable that a key refers to. -/
def referenced? (key : String) : Option String := do
  let rest ← Text.after? ['$', '\x7b'] (Text.trim key.toList)
  if rest.getLast? = some '\x7d' then return String.ofList rest.dropLast else none

/-- The variables for a key, the first one with a value going before the other. -/
def keyVariables : List String := ["DOCDRIFT_API_KEY", "OPENAI_API_KEY"]

/-- A reference to a variable, as a key. -/
def reference (name : String) : String := "$\x7b" ++ name ++ "\x7d"

/-- The key of settings, with its reference followed. -/
def followed (env : Environment) (key : String) : String :=
  match referenced? key with
  | some name => (valueOf env name).getD ""
  | none => key

/-- A value, or the first one among variables where it is empty. -/
def orElse (env : Environment) (value : String) (names : List String) : String :=
  if value.isEmpty then (names.findSome? (valueOf env)).getD "" else value

/-- The variable for the address of the judge. -/
def addressVariable : String := "OPENAI_API_BASE"

/-- The variable for the model. -/
def modelVariable : String := "OPENAI_MODEL"

/-- Access to a judge with what the environment adds. -/
def JudgeAccess.withEnvironment (a : JudgeAccess) (env : Environment) : JudgeAccess :=
  { a with
    apiKey := orElse env (followed env a.apiKey) keyVariables
    baseUrl := orElse env a.baseUrl [addressVariable]
    model := (valueOf env modelVariable).getD a.model }

/-- Settings with what the environment adds. -/
def withEnvironment (s : Settings) (env : Environment) : Settings :=
  { s with judge := s.judge.withEnvironment env }

/-- All variables that may add something to settings. -/
def variableNames (s : Settings) : List String :=
  (referenced? s.judge.apiKey).toList ++ keyVariables ++ [addressVariable, modelVariable]

end StaleDocs.Settings
