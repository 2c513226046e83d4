/-
Judges: who decides which segments are about a symbol, and whether a segment agrees with the
code. A judge answers with the effects of a monad, so its answers may depend on earlier ones.
-/
import StaleDocs.Docs.Segment
import StaleDocs.Judge.Verdict
import StaleDocs.Symbol.Basic

namespace StaleDocs.Judge
open Docs (Segment)

/-- Why a judge has no answer. -/
inductive JudgeError where
  | request (text : String)
  | status (code : Nat) (body : String)
  | emptyResponse
  /-- A reply without a JSON object in it. -/
  | noObject (reply : String)
  /-- A reply whose JSON object is not the one expected. -/
  | badObject
  | unavailable (text : String)
deriving DecidableEq, Repr

/-- The fault in words. -/
def JudgeError.message : JudgeError → String
  | .request text => "request failed: " ++ text
  | .status code body => "API returned status " ++ toString code ++ ": " ++ body
  | .emptyResponse => "no response from API"
  | .noObject reply => "invalid response: no JSON object in reply: " ++ reply
  | .badObject => "invalid response: not the expected JSON"
  | .unavailable text => "judge unavailable: " ++ text

/-- What a judge is asked about a segment and a symbol. -/
structure Question where
  docContent : String
  codeContent : String
  codeSymbol : String
  codeFile : String
deriving DecidableEq, Repr

/-- The question whether a segment agrees with a symbol. -/
def Question.about (symbol : Symbol) (segment : Segment) : Question :=
  ⟨segment.content, symbol.code, symbol.name, symbol.file⟩

end StaleDocs.Judge

namespace StaleDocs
open Judge (JudgeError Question Verdict)

/-- A judge whose answers have the effects of `m`. -/
structure Judge (m : Type → Type) where
  name : String
  /-- Whether a segment agrees with a symbol. -/
  analyze : Question → m (Except JudgeError Verdict)
  /-- The positions of the segments that are about a symbol. -/
  relevant : Symbol → List Docs.Segment → m (Except JudgeError (List Nat))

end StaleDocs
