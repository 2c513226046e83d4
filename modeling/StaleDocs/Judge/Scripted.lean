/-
A judge that answers from a script and counts its calls.
-/
import StaleDocs.Judge.Basic

namespace StaleDocs.Judge

/-- Set answers. A failure text takes the place of all answers of its kind. -/
structure Script where
  verdict : Verdict
  bySymbol : List (String × Verdict)
  /-- The positions that are relevant; without them, all are. -/
  positions : Option (List Nat)
  analyzeFailure : Option String
  relevantFailure : Option String

/-- The script that finds everything relevant and consistent. -/
def Script.agreeing : Script :=
  { verdict := ⟨true, true, 0.9, "documentation matches the code", ""⟩
    bySymbol := []
    positions := none
    analyzeFailure := none
    relevantFailure := none }

/-- The script of a judge that cannot be reached. -/
def Script.failing (text : String) : Script :=
  { Script.agreeing with analyzeFailure := some text, relevantFailure := some text }

/-- How often a judge was asked. -/
structure Calls where
  relevant : Nat
  analyze : Nat
deriving DecidableEq, Repr

/-- The verdict on a question. -/
def Script.answer (s : Script) (q : Question) : Except JudgeError Verdict :=
  match s.analyzeFailure with
  | some text => .error (.unavailable text)
  | none => .ok ((s.bySymbol.lookup q.codeSymbol).getD s.verdict)

/-- The relevant positions among some candidates. -/
def Script.select (s : Script) (candidates : Nat) : Except JudgeError (List Nat) :=
  match s.relevantFailure, s.positions with
  | some text, _ => .error (.unavailable text)
  | none, some ps => .ok (ps.filter (· < candidates))
  | none, none => .ok (List.range candidates)

/-- The judge that follows a script. -/
def Script.judge (s : Script) : Judge (StateM Calls) where
  name := "mock"
  analyze q := do
    modify fun calls => { calls with analyze := calls.analyze + 1 }
    return s.answer q
  relevant _ candidates := do
    modify fun calls => { calls with relevant := calls.relevant + 1 }
    return s.select candidates.length

end StaleDocs.Judge
