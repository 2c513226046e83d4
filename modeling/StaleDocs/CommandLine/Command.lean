/-
The commands and their arguments. A file with settings can be named before the command or after
it; what is named after it counts.
-/
import StaleDocs.CommandLine.Arguments
import StaleDocs.Report.Format

namespace StaleDocs.CommandLine

/-- What a check is asked for. -/
structure CheckRequest where
  /-- Files whose bindings are checked. -/
  files : List String
  /-- Whether the bindings of all documents are checked. -/
  all : Bool
  base : Option String
  uncommitted : Bool
  /-- Whether no judge is asked. -/
  quick : Bool
  format : Option Report.Format
  /-- Patterns in place of those of the settings. -/
  docs : List String

/-- A command. -/
inductive Command where
  | check (request : CheckRequest)
  | symbols (base : Option String) (uncommitted : Bool)
  | segments (paths : List String)
  | init (force : Bool)

/-- A command and the file with settings. -/
structure Invocation where
  settings : Option String
  command : Command

/-- Whether a word can be a path. -/
def isPath (s : String) : Bool := !s.isEmpty

/-- The option for the file with settings. -/
def settingsOption : OptionSpec := ⟨"config", .one, isPath⟩

/-- What is known before the command. -/
def topSpec : CommandSpec := ⟨[settingsOption], none, true⟩

/-- What a check knows. -/
def checkSpec : CommandSpec where
  options := [settingsOption, ⟨"all", .flag, fun _ => true⟩, ⟨"base", .one, fun _ => true⟩,
    ⟨"uncommitted", .flag, fun _ => true⟩, ⟨"quick", .flag, fun _ => true⟩,
    ⟨"format", .one, fun s => (Report.Format.ofWord? s).isSome⟩, ⟨"docs", .many, fun _ => true⟩]
  accepts := some isPath
  versioned := false

/-- What the command for symbols knows. -/
def symbolsSpec : CommandSpec where
  options := [settingsOption, ⟨"base", .one, fun _ => true⟩,
    ⟨"uncommitted", .flag, fun _ => true⟩]
  accepts := none
  versioned := false

/-- What the command for segments knows. -/
def segmentsSpec : CommandSpec := ⟨[settingsOption], some isPath, false⟩

/-- What the command for new settings knows. -/
def initSpec : CommandSpec := ⟨[settingsOption, ⟨"force", .flag, fun _ => true⟩], none, false⟩

/-- A check of the diff, or of the bindings of all documents or of some files. -/
def checkCommand (g : Given) : Except Stop Command :=
  if g.has "all" && !g.words.isEmpty then .error .misuse
  else
    .ok (.check {
      files := g.words.reverse
      all := g.has "all"
      base := g.value? "base"
      uncommitted := g.has "uncommitted"
      quick := g.has "quick"
      format := (g.value? "format").bind Report.Format.ofWord?
      docs := g.values "docs" })

/-- The symbols that the diff changes. -/
def symbolsCommand (g : Given) : Except Stop Command :=
  .ok (.symbols (g.value? "base") (g.has "uncommitted"))

/-- The segments of some files, one at least. -/
def segmentsCommand (g : Given) : Except Stop Command :=
  if g.words.isEmpty then .error .misuse else .ok (.segments g.words.reverse)

/-- A new file with settings. -/
def initCommand (g : Given) : Except Stop Command := .ok (.init (g.has "force"))

/-- What the command of a name knows, and how it is made of what is given. -/
def commandOf? : String → Option (CommandSpec × (Given → Except Stop Command))
  | "check" => some (checkSpec, checkCommand)
  | "symbols" => some (symbolsSpec, symbolsCommand)
  | "segments" => some (segmentsSpec, segmentsCommand)
  | "init" => some (initSpec, initCommand)
  | _ => none

/-- The command that asks for help, on itself or on another one. -/
def helpCommand : List String → Stop
  | [] => .help
  | [name] => if name = "help" || (commandOf? name).isSome then .help else .misuse
  | _ => .misuse

/-- A command of a name with its arguments, after what was given before it. -/
def invocation (before : Given) (name : String) (arguments : List String) :
    Except Stop Invocation := do
  if name = "help" then throw (helpCommand arguments)
  else
    match commandOf? name with
    | none => throw .misuse
    | some (spec, command) =>
      let g ← Given.nothing.takeAll spec arguments
      return ⟨(g.value? "config").or (before.value? "config"), ← command g⟩

/-- Reads arguments up to the command, after what was given before. -/
def readFrom (g : Given) : List String → Except Stop Invocation
  | [] => do
    let _ ← g.settle
    throw .misuse
  | argument :: arguments =>
    if g.pending.isNone && !(['-'].isPrefixOf argument.toList) then
      invocation g argument arguments
    else if argument = "--" then .error .misuse
    else do readFrom (← g.take topSpec argument) arguments

/-- The command that arguments stand for. -/
def Invocation.ofArguments (arguments : List String) : Except Stop Invocation :=
  readFrom .nothing arguments

end StaleDocs.CommandLine
