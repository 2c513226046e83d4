/-
Which documentation may be about which symbol. The broad pass tries four heuristics and adds
up what they contribute; the quick pass counts the words of the name that occur in the
segment. All comparisons are in lower case.
-/
import StaleDocs.Docs.Segment
import StaleDocs.Relevance.Score
import StaleDocs.Relevance.Words
import StaleDocs.Symbol.Basic
import StaleDocs.Text.Search

namespace StaleDocs.Relevance
open Docs (Segment)
open Text (lower occursIn)

/-- A symbol and a segment with the confidence that they belong together. -/
structure Pairing (σ : Type) where
  symbol : Symbol
  segment : Segment
  confidence : σ
  reason : String

/-- A reason for a symbol and a segment to belong together. -/
inductive Heuristic where
  /-- The name occurs in the segment. -/
  | exactName
  /-- The name occurs in a code block. -/
  | codeFence
  /-- Words of the name occur in the segment. -/
  | keyword
  /-- The first half of the name occurs in the content. -/
  | partialPrefix
deriving DecidableEq, Repr

/-- All heuristics, in the order in which they are tried. -/
def Heuristic.all : List Heuristic := [.exactName, .codeFence, .keyword, .partialPrefix]

/-- The words for a heuristic. -/
def Heuristic.label : Heuristic → String
  | .exactName => "exact name match"
  | .codeFence => "found in code block"
  | .keyword => "keyword match"
  | .partialPrefix => "partial name match"

/-- A segment in lower case. -/
structure Lowered where
  heading : List Char
  content : List Char

/-- A segment's heading and content in lower case. -/
def lowered (s : Segment) : Lowered :=
  ⟨lower s.heading.toList, lower s.content.toList⟩

/-- Whether a text occurs in the heading or the content. -/
def Lowered.mentions (l : Lowered) (text : List Char) : Bool :=
  occursIn text l.content || occursIn text l.heading

/-- The code block that a text starts with: its body after the line of the mark, up to the
next mark, and the text after that. -/
def codeBlockAt? (mark cs : List Char) : Option (List Char × List Char) := do
  let line ← Text.after? mark cs
  match line.dropWhile (· ≠ '\n') with
  | [] => none
  | _ :: body => Text.breakAt? mark body

/-- The bodies of the code blocks of a text, in at most `fuel` steps. A block is found by its
marks alone, wherever they stand. -/
def codeBlocksFrom : (fuel : Nat) → List Char → List (List Char)
  | 0, _ => []
  | _ + 1, [] => []
  | fuel + 1, c :: cs =>
    match codeBlockAt? "\x60\x60\x60".toList (c :: cs) with
    | some (body, rest) => body :: codeBlocksFrom fuel rest
    | none =>
      match codeBlockAt? "~~~".toList (c :: cs) with
      | some (body, rest) => body :: codeBlocksFrom fuel rest
      | none => codeBlocksFrom fuel cs

/-- The bodies of the code blocks of a text. -/
def codeBlocks (cs : List Char) : List (List Char) :=
  codeBlocksFrom (cs.length + 1) cs

/-- The first half of a name of more than five characters, in lower case, if it has more than
three itself. -/
def halfName? (name : List Char) : Option (List Char) :=
  if name.length ≤ 5 then none
  else
    let half := lower (name.take (name.length / 2))
    if 3 < half.length then some half else none

variable {σ : Type} [Score σ]

/-- The most that a heuristic contributes. -/
def Heuristic.weight : Heuristic → σ
  | .exactName => Score.one
  | .codeFence => Score.ratio 4 5
  | .keyword => Score.ratio 1 2
  | .partialPrefix => Score.ratio 3 10

/-- How many of some words count and occur. -/
def countMentions (l : Lowered) (ws : List (List Char)) : Nat :=
  (ws.filter fun w => isSignificant w && l.mentions w).length

/-- The part of a heuristic's weight that a name earns in a segment, if it applies. -/
def Heuristic.share? (h : Heuristic) (name : List Char) (content : List Char) (l : Lowered) :
    Option σ :=
  let name' := lower name
  let whole := fun (applies : Bool) => if applies then some Score.one else none
  match h with
  | .exactName => whole (l.mentions name')
  | .codeFence => whole ((codeBlocks content).any fun body => occursIn name' (lower body))
  | .keyword =>
    let ws := words name
    match countMentions l ws with
    | 0 => none
    | n + 1 => some (Score.ratio (n + 1) ws.length)
  | .partialPrefix =>
    match halfName? name with
    | some half => whole (occursIn half l.content)
    | none => none

/-- The heuristics that apply to a symbol and a segment, with what each contributes. A symbol
without a name has none. -/
def hits (symbol : Symbol) (segment : Segment) : List (Heuristic × σ) :=
  if symbol.name.isEmpty then []
  else
    let l := lowered segment
    Heuristic.all.filterMap fun h =>
      (h.share? symbol.name.toList segment.content.toList l).map fun share =>
        (h, Score.mul share h.weight)

/-- A symbol and a segment with the sum of the contributions, if any heuristic applies. -/
def broadScore? (symbol : Symbol) (segment : Segment) : Option (Pairing σ) :=
  match hits symbol segment with
  | [] => none
  | found =>
    some
      { symbol, segment
        confidence := Aggregation.sum.combine (found.map (·.2))
        reason := String.intercalate ", " (found.map fun hit => hit.1.label) }

/-- The broad pass over all pairs, symbols first. -/
def broadMatch (symbols : List Symbol) (segments : List Segment) : List (Pairing σ) :=
  symbols.flatMap fun symbol => segments.filterMap (broadScore? symbol)

/-- The reason that the quick pass gives. -/
def quickReason : String := "keyword match"

/-- A symbol and a segment with the fraction of the name and its words that count and occur, if
any does. -/
def quickScore? (symbol : Symbol) (segment : Segment) : Option (Pairing σ) :=
  if symbol.name.isEmpty then none
  else
    let name := symbol.name.toList
    let terms := words name ++ [lower name]
    match countMentions (lowered segment) terms with
    | 0 => none
    | n + 1 =>
      some
        { symbol, segment
          confidence := clamp (Score.ratio (n + 1) terms.length)
          reason := quickReason }

/-- The quick pass over all pairs, symbols first. -/
def quickMatch (symbols : List Symbol) (segments : List Segment) : List (Pairing σ) :=
  symbols.flatMap fun symbol => segments.filterMap (quickScore? symbol)

end StaleDocs.Relevance
