/-
Markdown as segments: each heading outside of code fences opens one, which runs to the line
before the next such heading. A heading with nothing but blank lines under it makes no segment,
and neither do the lines before the first heading.
-/
import StaleDocs.Docs.Segment
import StaleDocs.Text.Blank
import StaleDocs.Text.Lines

namespace StaleDocs.Docs
open Text (isBlank isBlankText)

/-- An open code fence: its character, and how often that was repeated. -/
structure Fence where
  marker : Char
  length : Nat
deriving DecidableEq

/-- The backtick. -/
def backtick : Char := '\x60'

/-- The fence run that a line starts with after at most three spaces, at least three of one
character, and the line after it. -/
def fenceRun? (line : List Char) : Option (Fence × List Char) :=
  let spaces := (line.takeWhile (· = ' ')).length
  let rest := line.drop spaces
  match rest with
  | [] => none
  | c :: _ =>
    let length := (rest.takeWhile (· = c)).length
    if spaces ≤ 3 && (c = backtick || c = '~') && 3 ≤ length then
      some (⟨c, length⟩, rest.drop length)
    else none

/-- The fence that a line opens. After backticks there must be no further backtick. -/
def opensFence? (line : List Char) : Option Fence :=
  match fenceRun? line with
  | some (fence, rest) =>
    if fence.marker = backtick && rest.contains backtick then none else some fence
  | none => none

/-- Whether a line closes a fence: the same character, at least as often, and nothing more. -/
def Fence.closedBy (fence : Fence) (line : List Char) : Bool :=
  match fenceRun? line with
  | some (run, rest) => run.marker = fence.marker && fence.length ≤ run.length && isBlankText rest
  | none => false

/-- The fence that is open after a line, if `fence` was before it. -/
def fenceAfter (fence : Option Fence) (line : List Char) : Option Fence :=
  match fence with
  | some f => if f.closedBy line then none else some f
  | none => opensFence? line

/-- The level and the text of a heading line: one to six number signs, and something after a
blank. -/
def heading? (line : List Char) : Option (Nat × List Char) :=
  let level := (line.takeWhile (· = '#')).length
  match line.drop level with
  | c :: d :: rest =>
    if 1 ≤ level && level ≤ 6 && isBlank c then some (level, Text.trim (c :: d :: rest)) else none
  | _ => none

/-- A segment whose end is not yet known; its lines are kept last first. -/
structure OpenSegment where
  heading : List Char
  level : Nat
  startLine : Nat
  lines : List (List Char)

/-- The segment, if some line after its heading is not blank. -/
def OpenSegment.close (file : String) (endLine : Nat) (s : OpenSegment) : Option Segment :=
  if s.lines.dropLast.all isBlankText then none
  else some
    { file
      heading := String.ofList s.heading
      level := s.level
      startLine := s.startLine
      endLine
      content := String.ofList (Text.trimEnd (Text.joinLines s.lines.reverse))
      kind := .markdown }

/-- The segments of the lines from number `n` on, after a fence and a segment that may be
open. -/
def markdownFrom (file : String) (fence : Option Fence) (current : Option OpenSegment) (n : Nat) :
    List (List Char) → List Segment
  | [] => (current.bind (OpenSegment.close file (n - 1))).toList
  | line :: rest =>
    match fence, opensFence? line, heading? line with
    | none, none, some (level, heading) =>
      (current.bind (OpenSegment.close file (n - 1))).toList ++
        markdownFrom file none (some ⟨heading, level, n, [line]⟩) (n + 1) rest
    | _, _, _ =>
      markdownFrom file (fenceAfter fence line)
        (current.map fun s => { s with lines := line :: s.lines }) (n + 1) rest

/-- The segments of a Markdown text. -/
def markdownSegments (file text : String) : List Segment :=
  markdownFrom file none none 1 (Text.lines text.toList)

end StaleDocs.Docs
