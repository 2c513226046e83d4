/-
Paths written with slashes: their components, file name and extension.
-/
namespace StaleDocs.Text

/-- The components of a path, empty ones included. -/
def components (path : String) : List String :=
  (path.toList.splitOn '/').map String.ofList

/-- The part of a name after its last point, if it has a point. -/
def afterLastPoint? (name : List Char) : Option (List Char) :=
  if name.contains '.' then some (name.reverse.takeWhile (· ≠ '.')).reverse else none

/-- Whether a string ends with another. -/
def endsWith (s tail : String) : Bool :=
  tail.toList.isSuffixOf s.toList

/-- Whether a string starts with another. -/
def startsWith (s head : String) : Bool :=
  head.toList.isPrefixOf s.toList

/-- The last name in a path, if it does not end by going up. -/
def fileName? (path : String) : Option String :=
  match ((components path).filter fun part => part ≠ "" && part ≠ ".").reverse with
  | [] => none
  | name :: _ => if name = ".." then none else some name

/-- The part of a name after its last point. A point at the start begins no extension. -/
def nameExtension? (name : List Char) : Option (List Char) :=
  match name with
  | [] => none
  | first :: others =>
    if first = '.' && !others.contains '.' then none else afterLastPoint? (first :: others)

/-- The extension of a path's file name. -/
def extension? (path : String) : Option (List Char) := do
  nameExtension? (← fileName? path).toList

/-- Whether a path has one of some extensions, which are given in lower case; only letters of
ASCII may differ in case. -/
def hasExtension (path : String) (extensions : List String) : Bool :=
  match extension? path with
  | some e => extensions.any fun x => x.toList = e.map Char.toLower
  | none => false

/-- A path below a directory; a path from the root stands for itself. -/
def joinPath (directory path : String) : String :=
  if startsWith path "/" || directory.isEmpty then path
  else if endsWith directory "/" then directory ++ path
  else directory ++ "/" ++ path

/-- A path with a slash for every backslash. -/
def slashed (path : String) : String :=
  path.map fun c => if c = '\\' then '/' else c

end StaleDocs.Text
