/-
Rules on what to ignore, one to a line. A line with a number sign in front is a comment, an
exclamation mark turns a rule into one that keeps, a slash at the end limits it to directories,
and any other slash ties it to the directory of the rules. A line that is no pattern says nothing.
-/
import StaleDocs.Glob.Parser
import StaleDocs.Text.Blank
import StaleDocs.Text.Lines
import StaleDocs.Text.Utf8

namespace StaleDocs.Ignore

/-- A rule on paths below the directory of the rules. -/
structure Rule where
  pattern : List Glob.Piece
  /-- Whether it keeps what it matches. -/
  keeps : Bool
  directoriesOnly : Bool

/-- What rules say about a path. -/
inductive Decision where
  | ignored
  | kept
deriving DecidableEq, Repr

/-- A line without the blanks at its end, unless the last one is escaped. -/
def trimLine (line : List Char) : List Char :=
  if ['\\', ' '].isSuffixOf line then line else Text.trimEnd line

/-- A pattern without the slash at its end, which may be escaped, and whether it had one. -/
def cutSlash (body : List Char) : Bool × List Char :=
  match body.reverse with
  | '/' :: '\\' :: rest => (true, rest.reverse)
  | '/' :: rest => (true, rest.reverse)
  | _ => (false, body)

/-- A pattern that matches at any depth, unless it is tied to the directory of the rules. -/
def atAnyDepth (tied : Bool) (body : List Char) : List Char :=
  if tied || body.contains '/' || body = "**".toList then body else "**/".toList ++ body

/-- A pattern that does not match a directory by what may be in it. -/
def insideOnly (body : List Char) : List Char :=
  if "/**".toList.isSuffixOf body then body ++ "/*".toList else body

/-- The rule of a pattern, without the marks in front of it. -/
def Rule.ofBody? (keeps tied : Bool) (body : List Char) : Option Rule :=
  let (directoriesOnly, body) := cutSlash body
  match Glob.parse .literal (insideOnly (atAnyDepth tied body)) with
  | .ok pattern => some ⟨pattern, keeps, directoriesOnly⟩
  | .error _ => none

/-- The rule of a line. -/
def Rule.ofLine? (line : List Char) : Option Rule :=
  match line with
  | '#' :: _ => none
  | _ =>
    match trimLine line with
    | [] => none
    | '\\' :: '!' :: rest => Rule.ofBody? false false ('!' :: rest)
    | '\\' :: '#' :: rest => Rule.ofBody? false false ('#' :: rest)
    | '!' :: '/' :: rest => Rule.ofBody? true true rest
    | '!' :: rest => Rule.ofBody? true false rest
    | '/' :: rest => Rule.ofBody? false true rest
    | body => Rule.ofBody? false false body

/-- Whether a rule is about a path. -/
def Rule.covers (r : Rule) (path : String) (isDirectory : Bool) : Bool :=
  (isDirectory || !r.directoriesOnly) && Glob.isMatch r.pattern path

/-- What rules say about a path: the last one that is about it decides. -/
def decision? (rules : List Rule) (path : String) (isDirectory : Bool) : Option Decision :=
  (rules.reverse.find? fun r => r.covers path isDirectory).map fun r =>
    if r.keeps then .kept else .ignored

/-- A text up to its last line end. -/
def wholeLines (cs : List Char) : List Char :=
  (cs.reverse.dropWhile (· ≠ '\n')).reverse

/-- The mark that a text in Unicode may start with. -/
def byteOrderMark : Char := '\ufeff'

/-- The rules of a file; lines from the first one on that is no text are left out. -/
def rulesOf (bytes : List UInt8) : List Rule :=
  let (cs, rest) := Text.decodeUtf8 bytes
  let cs := if rest.isEmpty then cs else wholeLines cs
  (Text.lines (cs.dropWhile (· = byteOrderMark))).filterMap Rule.ofLine?

end StaleDocs.Ignore
