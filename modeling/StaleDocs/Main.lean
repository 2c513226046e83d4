/-
The program. Files, variables and the clock are those of the machine. From here no other
program is started and no connection opened: `git` counts as one that cannot be started, and a
request as one that is not answered.
-/
import StaleDocs.CommandLine.Run

namespace StaleDocs.Machine
open Files (FileError Kind FileTree)

/-- A fault of the machine. -/
def faultOf : IO.Error → FileError
  | .noFileOrDirectory .. => .notFound
  | .inappropriateType _ code _ => if code = 21 then .isDirectory else .notADirectory
  | .permissionDenied _ code details =>
    .other (details ++ " (os error " ++ toString code ++ ")")
  | e => .other (toString e)

/-- Does something to a file; no file has the empty path. -/
def attempt {α : Type} (path : String) (act : IO α) : IO (Except FileError α) := do
  if path.isEmpty then return .error .notFound
  else
    try return .ok (← act)
    catch e => return .error (faultOf e)

/-- What a file is, if it is a file or a directory. -/
def kindOf? (type : IO.FS.FileType) : Option Kind :=
  match type with
  | .file => some .file
  | .dir => some .directory
  | _ => none

/-- What is at a path. -/
def kindAt? (path : String) : IO (Option Kind) := do
  let here ← IO.currentDir
  match ← attempt path (here / path).metadata with
  | .ok found => return kindOf? found.type
  | .error _ => return none

/-- The names at and below a path. Links are not followed. -/
partial def namesBelow (path : String) : IO (List (String × FileTree Unit)) := do
  let here ← IO.currentDir
  match ← attempt path (here / path).readDir with
  | .error _ => return []
  | .ok entries =>
    let found ← entries.toList.mapM fun entry => do
      let below := Text.joinPath path entry.fileName
      match ← attempt below (here / below).symlinkMetadata with
      | .error _ => return []
      | .ok found =>
        match kindOf? found.type with
        | some .file => return [(entry.fileName, FileTree.file ())]
        | some .directory => return [(entry.fileName, .directory (← namesBelow below))]
        | none => return []
    return found.flatten

/-- The files of the machine. -/
def files : StaleDocs.Files IO where
  read path := do
    return (← attempt path (IO.FS.readBinFile path)).map fun bytes => bytes.data.toList
  write path bytes := attempt path (IO.FS.writeBinFile path ⟨bytes.toArray⟩)
  kind? := kindAt?
  names? path := do
    match ← kindAt? path with
    | none => return none
    | some .file => return some (.file ())
    | some .directory => return some (.directory (← namesBelow path))
  place? path := do
    match ← attempt path (IO.FS.realPath path) with
    | .ok found =>
      return some ((Text.components found.toString).filter fun name => !name.isEmpty)
    | .error _ => return none

/-- The surroundings that the machine gives to a command. -/
def surroundings : IO (CommandLine.Surroundings IO) := do
  return { files := files
           home := ← IO.getEnv "HOME"
           environment := fun name => IO.getEnv name
           git := fun _ => return .error .notFound
           send := fun _ => return .error "no connection"
           now := IO.monoMsNow }

end StaleDocs.Machine

/-- Runs the command that the arguments stand for. -/
def main (arguments : List String) : IO UInt32 := do
  let outcome ← (← StaleDocs.Machine.surroundings).call arguments
  IO.print outcome.output
  IO.eprint outcome.complaint
  return outcome.code.toUInt32
