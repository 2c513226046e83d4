/-
Running commands. What a command needs of its surroundings are files, variables, `git`, a way to
send requests and a clock; what it leaves is an exit code and two texts. A command that fails
has the code 2, a check with violations the code 1 if the rules say so.
-/
import StaleDocs.CommandLine.Command
import StaleDocs.Docs.Json
import StaleDocs.Repository.Git
import StaleDocs.Settings.Store
import StaleDocs.Symbol.Json

namespace StaleDocs.CommandLine
open Docs (Binding ScanError Segment)
open Repository (CommandResult LookupError WorkingCopy)
open Files (FileError)

/-- What surrounds a command. -/
structure Surroundings (m : Type → Type) where
  files : Files m
  /-- The directory of the user, if it is known. -/
  home : Option String
  /-- The value of a variable. -/
  environment : String → m (Option String)
  git : List String → m (Except FileError CommandResult)
  send : Judge.Transport m
  /-- Milliseconds since some moment. -/
  now : m Nat

/-- Why a command fails. -/
inductive RunError where
  | settings (cause : Settings.StoreError)
  | unusable (fault : Settings.Fault)
  | repository (cause : LookupError)
  | judge (cause : Judge.JudgeError)
  | documentation (cause : ScanError)
  | bindings (cause : ScanError)
  | scan (cause : ScanError)
  | check (cause : Check.CheckError)

/-- The fault in words, with its causes. -/
def RunError.message : RunError → String
  | .settings cause => cause.chain
  | .unusable fault => fault.message
  | .repository cause => cause.message
  | .judge cause => "Failed to initialize semantic judge: " ++ cause.message
  | .documentation cause => "Failed to scan documentation: " ++ cause.chain
  | .bindings cause => "Failed to read bindings: " ++ cause.chain
  | .scan cause => cause.chain
  | .check cause => cause.message

/-- What a command leaves. -/
structure Outcome where
  code : Nat
  output : String
  complaint : String
deriving DecidableEq, Repr

/-- The outcome of a command that prints a text. -/
def Outcome.printed (text : String) : Outcome := ⟨0, text ++ "\n", ""⟩

/-- The outcome of a command that fails. -/
def Outcome.failed (e : RunError) : Outcome := ⟨2, "", "Error: " ++ e.message ++ "\n"⟩

/-- A text without the white space at its end. -/
def trimmedEnd (s : String) : String := String.ofList (Text.trimEnd s.toList)

/-- The exit code of a check. -/
def exitCode (s : Settings) (report : Check.Report) : Nat :=
  if report.hasInconsistencies && s.rules.failOnInconsistent then 1 else 0

/-- The outcome of a check. -/
def Outcome.ofReport (s : Settings) (report : Check.Report) : Outcome :=
  { Outcome.printed (trimmedEnd (Report.render report s.format s.rules.threshold)) with
    code := exitCode s report }

/-- The settings with what a request says instead. -/
def CheckRequest.adjust (r : CheckRequest) (s : Settings) : Settings :=
  { s with
    base := r.base.getD s.base
    format := r.format.getD s.format
    docs := { s.docs with included := if r.docs.isEmpty then s.docs.included else r.docs } }

/-- The revision that changes are compared with; uncommitted ones always with the last one. -/
def revision (s : Settings) (uncommitted : Bool) : String :=
  if uncommitted then Check.defaultBase else s.base

/-- A step of a command, which may fail. -/
abbrev Run (m : Type → Type) := ExceptT RunError m

variable {m : Type → Type} [Monad m]

/-- A step whose failure is one of the command. -/
def Run.of {ε α : Type} (fault : ε → RunError) (act : m (Except ε α)) : Run m α :=
  ExceptT.mk do return (← act).mapError fault

/-- The directory that commands run in. -/
def currentDirectory : String := "."

/-- The working copy that commands run in. -/
def Surroundings.copy (w : Surroundings m) : WorkingCopy m where
  git := w.git
  file path := w.files.read (Text.joinPath currentDirectory path)

/-- The settings that hold, with what the environment adds. -/
def Surroundings.settings (w : Surroundings m) (path : Option String) : Run m Settings :=
  .of .settings (Settings.load w.files w.home w.environment path)

/-- The judge to ask, if one is to be asked and there is a key. -/
def Surroundings.judge (w : Surroundings m) (s : Settings) (quick : Bool) :
    Run m (Option (Judge m)) :=
  if quick || !s.judge.isConfigured then return none
  else
    match Judge.Endpoint.create s.judge.baseUrl s.judge.apiKey s.judge.model with
    | .ok e => return some (e.judge w.send)
    | .error fault => throw (.judge fault)

/-- Fails outside of repositories. -/
def Surroundings.needRepository (w : Surroundings m) : Run m Unit := do
  if !(← (w.copy.isRepository : m Bool)) then throw (.repository .noRepository)

/-- A report with the time that it took. -/
def Surroundings.timed (w : Surroundings m) (report : Run m Check.Report) :
    Run m Check.Report := do
  let start ← (w.now : m Nat)
  let r ← report
  let stop ← (w.now : m Nat)
  return { r with milliseconds := stop - start }

/-- What a check against a revision is done with. -/
def Surroundings.setup (w : Surroundings m) (s : Settings) (judge : Option (Judge m))
    (base : String) : Check.Setup m where
  repository := w.copy.repository
  judge := judge
  base := base
  threshold := s.rules.threshold

/-- Checks the documentation against the changes. -/
def Surroundings.checkChanges (w : Surroundings m) (s : Settings) (uncommitted quick : Bool) :
    Run m Check.Report := do
  w.needRepository
  let judge ← w.judge s quick
  let setup := w.setup s judge (revision s uncommitted)
  let diff ← Run.of .check (setup.fetchDiff uncommitted)
  let segments ← Run.of .documentation (s.docs.segments w.files currentDirectory)
  w.timed (.of .check (setup.check diff segments))

/-- The bindings of files, or of all documents if there are none. -/
def Surroundings.bindings (w : Surroundings m) (s : Settings) (files : List String) :
    Run m (List Binding) :=
  .of .bindings <|
    if files.isEmpty then { s.docs with goComments := false }.bindings w.files currentDirectory
    else Docs.bindingsOfFiles w.files files

/-- Checks bindings against the code they name. -/
def Surroundings.checkBindings (w : Surroundings m) (s : Settings) (files : List String)
    (quick : Bool) : Run m Check.Report := do
  let bindings ← w.bindings s files
  let judge ← w.judge s quick
  let setup := w.setup s judge Check.defaultBase
  w.timed ((setup.checkBindings bindings : m Check.Report) : Run m Check.Report)

/-- Does a check. -/
def Surroundings.check (w : Surroundings m) (path : Option String) (r : CheckRequest) :
    Run m Outcome := do
  let s := r.adjust (← w.settings path)
  if let some fault := s.fault? then throw (.unusable fault)
  let report ← if r.all || !r.files.isEmpty then w.checkBindings s r.files r.quick
    else w.checkChanges s r.uncommitted r.quick
  return .ofReport s report

/-- Prints the symbols that the changes touch. -/
def Surroundings.symbols (w : Surroundings m) (path base : Option String) (uncommitted : Bool) :
    Run m Outcome := do
  let s ← w.settings path
  let s := { s with base := base.getD s.base }
  w.needRepository
  let setup := w.setup s none (revision s uncommitted)
  let diff ← Run.of .check (setup.fetchDiff uncommitted)
  let (symbols, _) ← Run.of .check (setup.changedSymbols diff)
  return .printed (Json.writeList Symbol.toJson symbols).pretty

/-- Prints the segments of files. -/
def Surroundings.segments (w : Surroundings m) (paths : List String) : Run m Outcome := do
  let segments ← Run.of .scan (Docs.segmentsOfFiles w.files paths)
  return .printed (Json.writeList Segment.toJson segments).pretty

/-- The file that new settings are written to where none is named. -/
def starterPath : String := ".docdrift.yaml"

/-- Writes new settings. -/
def Surroundings.init (w : Surroundings m) (path : Option String) (force : Bool) :
    Run m Outcome := do
  let path := path.getD starterPath
  let _ ← Run.of .settings (Settings.writeStarter w.files path force)
  return .printed ("Created " ++ path ++
    "\nSet OPENAI_API_KEY, or edit the file to configure the judge.")

/-- Runs a command. -/
def Surroundings.run (w : Surroundings m) (i : Invocation) : Run m Outcome :=
  match i.command with
  | .check r => w.check i.settings r
  | .symbols base uncommitted => w.symbols i.settings base uncommitted
  | .segments paths => w.segments paths
  | .init force => w.init i.settings force

/-- How the program is used. -/
def usage : String :=
  "Find documentation that may be stale after a code change\n\n" ++
  "Usage: docdrift [OPTIONS] <COMMAND>\n\n" ++
  "Commands:\n" ++
  "  check     Check documentation against the current changes, or the explicit bindings of" ++
  " the given markdown files\n" ++
  "  symbols   Print the changed symbols as JSON\n" ++
  "  segments  Print the documentation segments of the given files as JSON\n" ++
  "  init      Write a default config file (the --config path, or .docdrift.yaml)\n" ++
  "  help      Print this message or the help of the given subcommand(s)\n\n" ++
  "Options:\n" ++
  "      --config <CONFIG>  Config file (default: .docdrift.yaml/.json in cwd, then home)\n" ++
  "  -h, --help             Print help\n" ++
  "  -V, --version          Print version\n"

/-- The outcome of arguments that lead to no command. -/
def Stop.outcome : Stop → Outcome
  | .help => ⟨0, usage, ""⟩
  | .version => ⟨0, "docdrift 0.3.0\n", ""⟩
  | .misuse => ⟨2, "", usage⟩

/-- What the program leaves when it is called with arguments. -/
def Surroundings.call (w : Surroundings m) (arguments : List String) : m Outcome := do
  match Invocation.ofArguments arguments with
  | .error stop => return stop.outcome
  | .ok i =>
    match ← (w.run i).run with
    | .ok outcome => return outcome
    | .error fault => return .failed fault

end StaleDocs.CommandLine
