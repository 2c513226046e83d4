/-
A check: the symbols that a diff changes are paired with segments of documentation, and a
judge, if there is one, says which pairs belong together and whether they agree. Without a
judge the quick pass makes the pairs, and all of them count as consistent. Bindings name their
pairs themselves.
-/
import StaleDocs.Check.Result
import StaleDocs.Docs.Binding
import StaleDocs.Judge.Basic
import StaleDocs.Relevance.Reduction
import StaleDocs.Symbol.Extraction

namespace StaleDocs.Check
open Docs (Segment Binding)
open Go (Declaration)
open Judge (JudgeError Question Verdict)
open Relevance (Pairing SymbolGroup)
open Repository (LookupError)

/-- Why there is no report. -/
inductive CheckError where
  | uncommitted (cause : LookupError)
  | diff (base : String) (cause : LookupError)
  | unreadable (cause : Diff.Malformed)
  | extraction (cause : Diff.Malformed)
deriving DecidableEq, Repr

/-- The fault in words, with its cause. -/
def CheckError.message : CheckError → String
  | .uncommitted cause => "Failed to read uncommitted changes: " ++ cause.message
  | .diff base cause => "Failed to diff against " ++ base ++ ": " ++ cause.message
  | .unreadable cause => "Diff output is not readable: " ++ cause.message
  | .extraction cause => "Failed to extract changed symbols: " ++ cause.message

/-- The revision that changes are compared with where none is given. -/
def defaultBase : String := "HEAD"

/-- The confidence from which on a disagreement counts where none is given. -/
def defaultThreshold : Float := 0.8

/-- What a check is done with. -/
structure Setup (m : Type → Type) where
  repository : Repository m
  judge : Option (Judge m)
  base : String
  threshold : Float

variable {m : Type → Type} [Monad m]

/-- The bytes of the diff against the base, or of the uncommitted work. -/
def Setup.rawDiff (s : Setup m) (uncommitted : Bool) : m (Except CheckError (List UInt8)) :=
  if uncommitted then do
    return (← s.repository.uncommitted).mapError .uncommitted
  else do
    return (← s.repository.diff s.base).mapError (.diff s.base)

/-- The diff against the base, or that of the uncommitted work. -/
def Setup.fetchDiff (s : Setup m) (uncommitted : Bool) : m (Except CheckError String) := do
  return (← s.rawDiff uncommitted).bind fun raw => (Diff.decode raw).mapError .unreadable

/-- The symbols that a diff changes. -/
def Setup.changedSymbols (s : Setup m) (diff : String) :
    m (Except CheckError (List Symbol × Extraction.Stats)) := do
  return (← Extraction.extract s.repository s.base diff).mapError .extraction

/-- A pair that the judge found relevant. -/
def confirmed (p : Pairing Float) : Pairing Float :=
  { p with reason := "confirmed relevant by judge (" ++ p.reason ++ ")" }

/-- A pair of a symbol for which the judge failed. -/
def unconfirmed (fault : JudgeError) (p : Pairing Float) : Pairing Float :=
  { p with reason := p.reason ++ " (relevance check failed: " ++ fault.message ++ ")" }

/-- The elements at the given positions, each position once, those past the end left out. -/
def pick {α : Type} (xs : List α) (positions : List Nat) : List α :=
  positions.eraseDups.filterMap fun i => xs[i]?

/-- The pairs of a group that the judge finds relevant; all of them if it fails. -/
def relevantPairs (judge : Judge m) (g : SymbolGroup Float) : m (List (Pairing Float)) := do
  match ← judge.relevant g.symbol g.segments with
  | .ok positions => return (pick g.candidates positions).map confirmed
  | .error fault => return g.candidates.map (unconfirmed fault)

/-- The groups of candidates that a judge is asked about. -/
def candidateGroups (symbols : List Symbol) (segments : List Segment) : List (SymbolGroup Float) :=
  Relevance.groupBySymbol (Relevance.reduce .max (Relevance.broadMatch symbols segments))

/-- The pairs of symbols and segments that are to be compared. -/
def Setup.findPairs (s : Setup m) (symbols : List Symbol) (segments : List Segment) :
    m (List (Pairing Float)) :=
  match s.judge with
  | none => return Relevance.quickMatch symbols segments
  | some judge => do
    return (← (candidateGroups symbols segments).mapM (relevantPairs judge)).flatten

/-- The result of a pair that no judge has a word on. -/
def unjudged (p : Pairing Float) (reason : String) : Result :=
  { symbol := p.symbol
    segment := p.segment
    related := true
    consistent := true
    confidence := p.confidence
    matchConfidence := p.confidence
    reason := reason
    suggestion := "" }

/-- The result of a pair that a verdict was given on. -/
def judged (p : Pairing Float) (v : Verdict) : Result :=
  { symbol := p.symbol
    segment := p.segment
    related := v.related
    consistent := v.consistent
    confidence := v.confidence
    matchConfidence := p.confidence
    reason := v.reason
    suggestion := v.suggestion }

/-- The result of comparing a pair. If the judge fails, the pair counts as consistent. -/
def Setup.judgePair (s : Setup m) (p : Pairing Float) : m Result :=
  match s.judge with
  | none => return unjudged p (p.reason ++ "; semantic check skipped")
  | some judge => do
    match ← judge.analyze (Question.about p.symbol p.segment) with
    | .ok v => return judged p v.normalized
    | .error fault =>
      return unjudged p ("judge failed (" ++ fault.message ++
        "); falling back to matcher score: " ++ p.reason)

/-- How many results are violations. -/
def Setup.countViolations (s : Setup m) (results : List Result) : Nat :=
  (results.filter fun r => r.isViolation s.threshold).length

/-- The report on symbols and segments. -/
def Setup.compare (s : Setup m) (symbols : List Symbol) (skipped : Nat)
    (segments : List Segment) : m Report := do
  let pairs ← if symbols.isEmpty || segments.isEmpty then pure []
    else s.findPairs symbols segments
  let results ← pairs.mapM s.judgePair
  return { totalSymbols := symbols.length
           totalSegments := segments.length
           relevantPairs := pairs.length
           inconsistent := s.countViolations results
           skippedFiles := skipped
           results := results
           milliseconds := 0 }

/-- The report on a diff and segments. -/
def Setup.check (s : Setup m) (diff : String) (segments : List Segment) :
    m (Except CheckError Report) := do
  match ← s.changedSymbols diff with
  | .error fault => return .error fault
  | .ok (symbols, stats) => return .ok (← s.compare symbols stats.filesSkipped segments)

/-- The declaration that a binding names, as it is now; without one only the name is known. -/
def boundSymbol (b : Binding) (d : Option Declaration) : Symbol :=
  { file := b.codeFile
    name := b.symbol
    kind := b.kind
    change := .modified
    startLine := (d.map (·.span.first)).getD 0
    endLine := (d.map (·.span.last)).getD 0
    oldCode := ""
    newCode := (d.map (·.code)).getD "" }

/-- The result of a binding whose declaration is not in its file. -/
def missing (b : Binding) : Result :=
  { symbol := boundSymbol b none
    segment := b.segment
    related := true
    consistent := false
    confidence := 1
    matchConfidence := 1
    reason := "symbol " ++ b.symbol ++ " not found in file " ++ b.codeFile
    suggestion := "" }

/-- The result of a binding, given the declarations of its file. -/
def Setup.judgeBinding (s : Setup m) (b : Binding) (ds : List Declaration) : m Result :=
  match Declaration.find? ds b.symbol b.kind with
  | some d => s.judgePair ⟨boundSymbol b (some d), b.segment, 1, "explicit binding"⟩
  | none => return missing b

/-- The declarations of files that were read; none for a file that could not be. -/
abbrev Sources := List (String × Option (List Declaration))

/-- The declarations of a file as it is now, if it can be read. -/
def Setup.readSource (s : Setup m) (path : String) : m (Option (List Declaration)) := do
  match ← s.repository.current path with
  | .ok text => return Go.declarations? text
  | .error _ => return none

/-- The declarations of a file, and the files read so far; every file is read once. -/
def Setup.source (s : Setup m) (sources : Sources) (path : String) :
    m (Option (List Declaration) × Sources) :=
  match sources.lookup path with
  | some ds => return (ds, sources)
  | none => do
    let ds ← s.readSource path
    return (ds, (path, ds) :: sources)

/-- The results of bindings in order, after some files were read, and all files read. -/
def Setup.bindingResults (s : Setup m) (sources : Sources) :
    List Binding → m (List Result × Sources)
  | [] => return ([], sources)
  | b :: bs => do
    let (ds, sources) ← s.source sources b.codeFile
    match ds with
    | none => s.bindingResults sources bs
    | some ds => do
      let first ← s.judgeBinding b ds
      let (others, sources) ← s.bindingResults sources bs
      return (first :: others, sources)

/-- The report on bindings. Those to a file that cannot be read are left out. -/
def Setup.checkBindings (s : Setup m) (bs : List Binding) : m Report := do
  let (results, sources) ← s.bindingResults [] bs
  return { totalSymbols := bs.length
           totalSegments := bs.length
           relevantPairs := results.length
           inconsistent := s.countViolations results
           skippedFiles := (sources.filter fun entry => entry.2.isNone).length
           results := results
           milliseconds := 0 }

end StaleDocs.Check
