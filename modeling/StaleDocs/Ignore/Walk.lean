/-
The files below a directory that are not ignored. Each directory may hold rules in `.ignore`,
in `.gitignore`, and, if it is a repository, in a file inside `.git`. An entry is judged by the
rules of all directories around it, also those above the start, inner ones first; rules of git
count only inside a repository and from its directory on inwards. What `.ignore` says goes
before `.gitignore`, and that before the file inside `.git`. Nothing named `.git` is listed.
-/
import StaleDocs.Files.Basic
import StaleDocs.Ignore.Rule
import StaleDocs.Text.Path
import StaleDocs.Text.Search

namespace StaleDocs.Ignore
open Files (FileTree)

/-- The rules of a directory. -/
structure Level where
  /-- How many names lead from the root to the directory. -/
  depth : Nat
  plain : List Rule
  git : List Rule
  excluded : List Rule
  isRepository : Bool

/-- The path from a level's directory to a place below it. -/
def Level.pathTo (l : Level) (place : List String) : String :=
  String.intercalate "/" (place.drop l.depth)

/-- The levels from the innermost one to the first that is a repository. -/
def insideRepository : List Level → List Level
  | [] => []
  | l :: ls => if l.isRepository then [l] else l :: insideRepository ls

/-- What the first level with a say about a place decides by some of its rules. -/
def firstDecision? (rules : Level → List Rule) (levels : List Level) (place : List String)
    (isDirectory : Bool) : Option Decision :=
  levels.findSome? fun l => decision? (rules l) (l.pathTo place) isDirectory

/-- What the rules of git decide about a place. -/
def gitDecision? (levels : List Level) (place : List String) (isDirectory : Bool) :
    Option Decision :=
  if levels.any (·.isRepository) then
    let inner := insideRepository levels
    (firstDecision? Level.git inner place isDirectory).or
      (firstDecision? Level.excluded inner place isDirectory)
  else none

/-- Whether a place is ignored, given the levels around it, innermost first. -/
def isIgnored (levels : List Level) (place : List String) (isDirectory : Bool) : Bool :=
  (firstDecision? Level.plain levels place isDirectory).or
    (gitDecision? levels place isDirectory) = some .ignored

variable {m : Type → Type} [Monad m]

/-- The rules of a file, none if it cannot be read. -/
def readRules (files : Files m) (path : String) : m (List Rule) := do
  match ← files.read path with
  | .ok bytes => return rulesOf bytes
  | .error _ => return []

/-- The first line of a text file, if it has one. -/
def firstLine? (files : Files m) (path : String) : m (Option String) := do
  match ← files.text path with
  | .ok text => return (Text.linesOf text).head?
  | .error _ => return none

/-- The directory of git that a file `.git` refers to: one shared by several working copies. -/
def sharedGit? (files : Files m) (dotGit : String) : m (Option String) := do
  match ← firstLine? files dotGit with
  | none => return none
  | some line =>
    match Text.after? "gitdir: ".toList line.toList with
    | none => return none
    | some rest =>
      let own := String.ofList rest
      match ← firstLine? files (Text.joinPath own "commondir") with
      | none => return none
      | some shared =>
        return some (if Text.startsWith shared "." then Text.joinPath own shared else shared)

/-- The rules inside `.git`. -/
def readExcluded (files : Files m) (directory : String) : m (List Rule) := do
  let dotGit := Text.joinPath directory ".git"
  match ← files.kind? dotGit with
  | none => return []
  | some .directory => readRules files (Text.joinPath dotGit "info/exclude")
  | some .file =>
    match ← sharedGit? files dotGit with
    | none => return []
    | some git => readRules files (Text.joinPath git "info/exclude")

/-- Names that make a directory a repository. -/
def repositoryMarks : List String := [".git", ".jj"]

/-- The rules of a directory. -/
def readLevel (files : Files m) (directory : String) (depth : Nat) : m Level := do
  let marks ← repositoryMarks.mapM fun name => files.kind? (Text.joinPath directory name)
  return { depth := depth
           plain := ← readRules files (Text.joinPath directory ".ignore")
           git := ← readRules files (Text.joinPath directory ".gitignore")
           excluded := ← readExcluded files directory
           isRepository := marks.any Option.isSome }

/-- The rules of the directories above a place, innermost first. -/
def readLevelsAbove (files : Files m) (place : List String) : m (List Level) :=
  (List.range place.length).reverse.mapM fun depth =>
    readLevel files ("/" ++ String.intercalate "/" (place.take depth)) depth

mutual

/-- The files of a tree, as names from the start, given the names and the levels so far. The
start is at `path` and at `place`. -/
def walkTree (files : Files m) (path : String) (place names : List String)
    (levels : List Level) : FileTree Unit → m (List (List String))
  | .file _ => return [names]
  | .directory entries => do
    let directory := Text.joinPath path (String.intercalate "/" names)
    let level ← readLevel files directory (place ++ names).length
    walkEntries files path place names (level :: levels) entries

/-- The files of a directory's entries that are not ignored. -/
def walkEntries (files : Files m) (path : String) (place names : List String)
    (levels : List Level) : List (String × FileTree Unit) → m (List (List String))
  | [] => return []
  | (name, t) :: es => do
    let here := names ++ [name]
    let found ← if name = ".git" || isIgnored levels (place ++ here) (t.kind = .directory) then
        pure []
      else walkTree files path place here levels t
    return found ++ (← walkEntries files path place names levels es)

end

/-- The files at or below a path that are not ignored, as names from there, in their order. -/
def walk (files : Files m) (path : String) : m (List (List String)) := do
  match ← files.names? path, ← files.place? path with
  | some t, some place =>
    let found ← walkTree files path place [] (← readLevelsAbove files place) t
    return found.mergeSort fun a b => !decide (b < a)
  | _, _ => return []

end StaleDocs.Ignore
