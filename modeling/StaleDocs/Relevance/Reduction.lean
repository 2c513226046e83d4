/-
One result for each symbol and segment, and results grouped by symbol, both in the order in
which they were first seen.
-/
import StaleDocs.Relevance.Pairing

namespace StaleDocs.Relevance
open Diff (ChangeKind)

variable {σ : Type} [Score σ]

/-- What identifies a symbol and a segment. -/
structure PairKey where
  symbolFile : String
  name : String
  change : ChangeKind
  segmentFile : String
  startLine : Nat
deriving DecidableEq

/-- The key of a pairing. -/
def Pairing.key (p : Pairing σ) : PairKey :=
  ⟨p.symbol.file, p.symbol.name, p.symbol.change, p.segment.file, p.segment.startLine⟩

/-- Cuts at every `sep`, in at most `fuel` steps. -/
def splitFrom (sep : List Char) : (fuel : Nat) → List Char → List (List Char)
  | 0, cs => [cs]
  | fuel + 1, cs =>
    match Text.breakAt? sep cs with
    | some (first, rest) => first :: splitFrom sep fuel rest
    | none => [cs]

/-- The labels of a reason, which have a comma and a space between. -/
def labels (reason : List Char) : List (List Char) :=
  splitFrom ", ".toList reason.length reason

/-- A reason with one more label, unless it is there. -/
def addLabel (reason label : List Char) : List Char :=
  if (labels reason).contains label then reason else reason ++ ", ".toList ++ label

/-- A reason with the labels of another that it lacks. -/
def mergeReasons (a b : String) : String :=
  String.ofList ((labels b.toList).foldl addLabel a.toList)

/-- Two results for one symbol and segment as one. -/
def Pairing.merge (how : Aggregation) (a b : Pairing σ) : Pairing σ :=
  match how with
  | .sum =>
    { a with
      confidence := Aggregation.sum.combine [a.confidence, b.confidence]
      reason := mergeReasons a.reason b.reason }
  | .max => if Score.lt a.confidence b.confidence then b else a

/-- Adds a result: into the one with its key, else as the last. -/
def absorb (how : Aggregation) (p : Pairing σ) : List (Pairing σ) → List (Pairing σ)
  | [] => [p]
  | q :: qs => if q.key = p.key then q.merge how p :: qs else q :: absorb how p qs

/-- One result for each key. -/
def reduce (how : Aggregation) (ps : List (Pairing σ)) : List (Pairing σ) :=
  ps.foldl (fun done p => absorb how p done) []

/-- The candidates of one symbol. -/
structure SymbolGroup (σ : Type) where
  symbol : Symbol
  candidates : List (Pairing σ)

/-- Whether a pairing belongs to a group: the same file and name. -/
def SymbolGroup.admits (g : SymbolGroup σ) (p : Pairing σ) : Bool :=
  g.symbol.file = p.symbol.file && g.symbol.name = p.symbol.name

/-- Adds a pairing to the group that admits it, else as a group of its own. -/
def joinGroup (p : Pairing σ) : List (SymbolGroup σ) → List (SymbolGroup σ)
  | [] => [⟨p.symbol, [p]⟩]
  | g :: gs =>
    if g.admits p then { g with candidates := g.candidates ++ [p] } :: gs else g :: joinGroup p gs

/-- The pairings of each symbol together. -/
def groupBySymbol (ps : List (Pairing σ)) : List (SymbolGroup σ) :=
  ps.foldl (fun groups p => joinGroup p groups) []

/-- The segments of a group's candidates. -/
def SymbolGroup.segments (g : SymbolGroup σ) : List Docs.Segment :=
  g.candidates.map (·.segment)

end StaleDocs.Relevance
