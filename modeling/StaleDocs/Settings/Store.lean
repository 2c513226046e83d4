/-
Settings in files. The notation follows from the extension; a file that is missing, or that
does not describe settings, stands for the standard ones.
-/
import StaleDocs.Files.Basic
import StaleDocs.Json.Reader
import StaleDocs.Settings.Environment
import StaleDocs.Settings.Record
import StaleDocs.Text.Path

namespace StaleDocs.Settings
open Files (FileError)

/-- The names of files with settings, in the order they are looked for. -/
def fileNames : List String := [".docdrift.yaml", ".docdrift.yml", ".docdrift.json"]

/-- The notation of a file. -/
def Form.ofPath (path : String) : Form :=
  if Text.hasExtension path ["yaml", "yml"] then .yaml else .json

/-- Why settings cannot be read or written. -/
inductive StoreError where
  | unreadable (path : String) (cause : FileError)
  | unwritable (path : String) (cause : FileError)
  | exists (path : String)
deriving DecidableEq, Repr

/-- The fault in words, without its cause. -/
def StoreError.message : StoreError → String
  | .unreadable path _ => "failed to read config: " ++ path
  | .unwritable path _ => "failed to write config: " ++ path
  | .exists path => path ++ " already exists, pass --force to overwrite it"

/-- The fault in words, with its cause. -/
def StoreError.chain (e : StoreError) : String :=
  match e with
  | .unreadable _ cause | .unwritable _ cause => e.message ++ ": " ++ cause.message
  | .exists _ => e.message

variable {m : Type → Type} [Monad m]

/-- The first path at which there is a file. -/
def firstFile? (files : Files m) : List String → m (Option String)
  | [] => return none
  | path :: paths => do
    if (← files.kind? path) = some .file then return some path else firstFile? files paths

/-- The first file with settings in some directories. -/
def findIn? (files : Files m) (directories : List String) : m (Option String) :=
  firstFile? files (directories.flatMap fun d => fileNames.map (Text.joinPath d))

/-- The file with settings in the current directory, or in that of the user. -/
def find? (files : Files m) (home : Option String) : m (Option String) :=
  findIn? files ("." :: home.toList)

/-- The settings of a file. -/
def loadFile (files : Files m) (path : String) : m (Except StoreError Settings) := do
  if (← files.kind? path).isNone then return .ok .standard
  else
    match ← files.text path with
    | .error cause => return .error (.unreadable path cause)
    | .ok text => return .ok ((parse? (Form.ofPath path) text).getD .standard)

/-- Settings with what the environment adds; only the variables that may matter are looked up. -/
def adjusted (s : Settings) (env : String → m (Option String)) : m Settings := do
  let values ← s.variableNames.mapM fun name => return (name, ← env name)
  return s.withEnvironment fun name => (values.lookup name).join

/-- The settings of a file, or of the one that is found, with what the environment adds. -/
def load (files : Files m) (home : Option String) (env : String → m (Option String))
    (path : Option String) : m (Except StoreError Settings) := do
  let found ← match path with
    | some p => pure (some p)
    | none => find? files home
  match ← found.mapM (loadFile files) with
  | some (.error fault) => return .error fault
  | some (.ok s) => return .ok (← s.adjusted env)
  | none => return .ok (← standard.adjusted env)

/-- Writes settings to a file. -/
def save (s : Settings) (files : Files m) (path : String) : m (Except StoreError Unit) := do
  return (← files.write path (s.render (Form.ofPath path)).toUTF8.toList).mapError
    (StoreError.unwritable path)

/-- The settings to start with: the standard ones, with a key from the environment. -/
def starter : Settings :=
  { standard with judge := { standard.judge with apiKey := reference "OPENAI_API_KEY" } }

/-- Writes the settings to start with; a file that exists has to be overwritten on purpose. -/
def writeStarter (files : Files m) (path : String) (force : Bool) :
    m (Except StoreError Settings) := do
  if !force && (← files.kind? path).isSome then return .error (.exists path)
  else return (← starter.save files path).map fun _ => starter

end StaleDocs.Settings
