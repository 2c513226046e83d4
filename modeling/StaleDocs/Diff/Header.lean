/-
Header lines of a unified diff. A file header is `diff --git a/OLD b/NEW`, cut at the last
place where both paths are non-empty; a hunk header is `@@ -START[,COUNT] +START[,COUNT] @@`
with whatever follows, and a missing count means one line.
-/
import StaleDocs.Diff.Hunk
import StaleDocs.Text.Search

namespace StaleDocs.Diff
open Text (after? readNat? isDecimal maxWord)

/-- Why a diff cannot be read. -/
inductive Malformation where
  | longLine
  | nulByte
  | number (digits : String)
  | range
  | encoding
deriving DecidableEq, Repr

/-- The most bytes a line may have. -/
def maxLineBytes : Nat := 1024 * 1024

/-- The reason in words. -/
def Malformation.reason : Malformation → String
  | .longLine => "line exceeds " ++ toString maxLineBytes ++ " bytes"
  | .nulByte => "NUL byte in diff text"
  | .number digits => "hunk number " ++ digits ++ " out of range"
  | .range => "hunk range overflows"
  | .encoding => "invalid UTF-8"

/-- A diff that cannot be read, with the number of the offending line. -/
structure Malformed where
  line : Nat
  cause : Malformation
deriving DecidableEq, Repr

/-- The fault in words. -/
def Malformed.message (m : Malformed) : String :=
  "malformed diff at line " ++ toString m.line ++ ": " ++ m.cause.reason

/-- Moves back through a text, last character first in `before`, until ` b/` stands between two
non-empty parts. -/
def cutPathsFrom (new : List Char) : (before : List Char) → Option (List Char × List Char)
  | [] => none
  | '/' :: 'b' :: ' ' :: c :: before =>
    if new.isEmpty then cutPathsFrom ('/' :: new) ('b' :: ' ' :: c :: before)
    else some ((c :: before).reverse, new)
  | c :: before => cutPathsFrom (c :: new) before

/-- The two paths of a file header. -/
def filePaths? (line : List Char) : Option (String × String) := do
  let rest ← after? "diff --git a/".toList line
  let (old, new) ← cutPathsFrom [] rest.reverse
  return (String.ofList old, String.ofList new)

/-- The decimal digits that a text starts with, if any, and the rest. -/
def digits? (cs : List Char) : Option (List Char × List Char) :=
  match cs.takeWhile isDecimal with
  | [] => none
  | ds => some (ds, cs.dropWhile isDecimal)

/-- A comma with digits, if the text starts with one, and the rest. -/
def count? (cs : List Char) : Option (List Char) × List Char :=
  match cs with
  | ',' :: rest =>
    match digits? rest with
    | some (ds, rest) => (some ds, rest)
    | none => (none, cs)
  | _ => (none, cs)

/-- The four groups of digits of a hunk header. -/
structure HunkDigits where
  oldStart : List Char
  oldCount : Option (List Char)
  newStart : List Char
  newCount : Option (List Char)

/-- The digits of a line that has the form of a hunk header. -/
def hunkDigits? (line : List Char) : Option HunkDigits := do
  let rest ← after? "@@ -".toList line
  let (oldStart, rest) ← digits? rest
  let (oldCount, rest) := count? rest
  let rest ← after? " +".toList rest
  let (newStart, rest) ← digits? rest
  let (newCount, rest) := count? rest
  let _ ← after? " @@".toList rest
  return ⟨oldStart, oldCount, newStart, newCount⟩

/-- The number that digits write, where it is a possible line number. -/
def lineNumber (ds : List Char) : Except Malformation Nat :=
  match readNat? maxWord ds with
  | some n => .ok n
  | none => .error (.number (String.ofList ds))

/-- The number that the digits of a count write; without digits it is one. -/
def lineCount : Option (List Char) → Except Malformation Nat
  | some ds => lineNumber ds
  | none => .ok 1

/-- The hunk that a line announces, if it has the form of a hunk header. -/
def hunk? (line : List Char) : Except Malformation (Option Hunk) :=
  match hunkDigits? line with
  | none => .ok none
  | some ds => do
    let h : Hunk :=
      { oldStart := ← lineNumber ds.oldStart
        oldCount := ← lineCount ds.oldCount
        newStart := ← lineNumber ds.newStart
        newCount := ← lineCount ds.newCount }
    if h.oldStart + h.oldCount ≤ maxWord && h.newStart + h.newCount ≤ maxWord then
      return some h
    else throw .range

end StaleDocs.Diff
