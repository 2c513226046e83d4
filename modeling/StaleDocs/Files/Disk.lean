/-
Files held as a value: one tree and a current directory. A path is followed part by part, and
every part but the last has to be a directory.
-/
import StaleDocs.Files.Basic
import StaleDocs.Text.Path

namespace StaleDocs.Files

/-- What is at the end of some names in a tree. -/
def FileTree.at? {α : Type} : List String → FileTree α → Option (FileTree α)
  | [], t => some t
  | _ :: _, .file _ => none
  | name :: names, .directory entries => do (← entries.lookup name).at? names

/-- Entries with one of them put in place of the entry of its name, or added. -/
def putEntry {α : Type} (name : String) (t : FileTree α) :
    List (String × FileTree α) → List (String × FileTree α)
  | [] => [(name, t)]
  | e :: es => if e.1 = name then (name, t) :: es else e :: putEntry name t es

/-- A tree with something put at the end of some names, where directories are made as needed. -/
def FileTree.put {α : Type} (new : FileTree α) : List String → FileTree α → FileTree α
  | [], _ => new
  | name :: names, .file _ => .directory [(name, new.put names (.directory []))]
  | name :: names, .directory entries =>
    .directory (putEntry name (new.put names ((entries.lookup name).getD (.directory []))) entries)

/-- Files and the directory that relative paths start from. -/
structure Disk where
  root : FileTree (List UInt8)
  current : List String

/-- The place reached from a directory by one part of a path. -/
def Disk.step (d : Disk) (place : List String) (part : String) : Except FileError (List String) :=
  match d.root.at? place with
  | none => .error .notFound
  | some (.file _) => .error .notADirectory
  | some (.directory entries) =>
    if part = "" || part = "." then .ok place
    else if part = ".." then .ok place.dropLast
    else if (entries.lookup part).isSome then .ok (place ++ [part])
    else .error .notFound

/-- Where a path starts. -/
def Disk.start (d : Disk) (path : String) : List String :=
  if Text.startsWith path "/" then [] else d.current

/-- The place that a path leads to. -/
def Disk.follow (d : Disk) (path : String) : Except FileError (List String) :=
  if path.isEmpty then .error .notFound
  else (Text.components path).foldlM d.step (d.start path)

/-- What is at a path. -/
def Disk.find (d : Disk) (path : String) : Except FileError (FileTree (List UInt8)) :=
  match d.follow path with
  | .error fault => .error fault
  | .ok place =>
    match d.root.at? place with
    | some t => .ok t
    | none => .error .notFound

/-- The bytes of the file at a path. -/
def Disk.read (d : Disk) (path : String) : Except FileError (List UInt8) :=
  match d.find path with
  | .error fault => .error fault
  | .ok (.file bytes) => .ok bytes
  | .ok (.directory _) => .error .isDirectory

/-- The place of a file to be written: there it may be new, but not its directory. -/
def Disk.target (d : Disk) (path : String) : Except FileError (List String) :=
  match (Text.components path).reverse with
  | [] => .error .notFound
  | last :: before =>
    if path.isEmpty then .error .notFound
    else if last = "" || last = "." || last = ".." then
      match d.follow path with
      | .ok _ => .error .isDirectory
      | .error fault => .error fault
    else
      match before.reverse.foldlM d.step (d.start path) with
      | .error fault => .error fault
      | .ok place =>
        match d.root.at? place with
        | some (.directory entries) =>
          match entries.lookup last with
          | some (.directory _) => .error .isDirectory
          | _ => .ok (place ++ [last])
        | some (.file _) => .error .notADirectory
        | none => .error .notFound

/-- The disk after the file at a path got new bytes. -/
def Disk.write (d : Disk) (path : String) (bytes : List UInt8) : Except FileError Disk :=
  match d.target path with
  | .error fault => .error fault
  | .ok place => .ok { d with root := (FileTree.file bytes).put place d.root }

mutual

/-- A tree without the contents of its files. -/
def FileTree.names {α : Type} : FileTree α → FileTree Unit
  | .file _ => .file ()
  | .directory entries => .directory (entryNames entries)

/-- Entries without the contents of their files. -/
def entryNames {α : Type} : List (String × FileTree α) → List (String × FileTree Unit)
  | [] => []
  | (name, t) :: es => (name, t.names) :: entryNames es

end

/-- The files of a disk that is part of the state of `m`. -/
def Disk.files {m : Type → Type} [Monad m] [MonadStateOf Disk m] : Files m where
  read path := return (← getThe Disk).read path
  write path bytes := do
    match (← getThe Disk).write path bytes with
    | .ok d => set d; return .ok ()
    | .error fault => return .error fault
  kind? path := return ((← getThe Disk).find path).toOption.map FileTree.kind
  names? path := return ((← getThe Disk).find path).toOption.map FileTree.names
  place? path := return ((← getThe Disk).follow path).toOption

end StaleDocs.Files
