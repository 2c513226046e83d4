/-
Reading a judge's reply: the JSON object in it, from its first opening to its last closing
brace, whatever prose stands around it.
-/
import StaleDocs.Json.Reader
import StaleDocs.Judge.Basic

namespace StaleDocs.Judge
open Json (Value)

/-- The text from the first opening brace to the last closing one. -/
def objectText? (reply : List Char) : Option (List Char) :=
  match (reply.dropWhile (· ≠ '{')).reverse.dropWhile (· ≠ '}') with
  | [] => none
  | cs => some cs.reverse

/-- What a reply's object says, as `read` has it. -/
def readReply {α : Type} (read : Json.Read α) (reply : String) : Except JudgeError α :=
  match objectText? reply.toList with
  | none => .error (.noObject reply)
  | some object =>
    match (Value.parse? (String.ofList object)).bind read with
    | some x => .ok x
    | none => .error .badObject

/-- The verdict of a reply. -/
def parseVerdict (reply : String) : Except JudgeError Verdict :=
  (readReply Verdict.ofJson? reply).map Verdict.normalized

/-- The list of integers in a record that answers a question of relevance. -/
def relevantField? : Json.Read (List Int) := fun v => do
  match ← Json.fields? ["relevant"] v with
  | [relevant] => Record.defaulted [] (Json.readList Json.readInt) relevant
  | _ => none

/-- The positions below `candidates` among integers, each once, in order. -/
def positions (candidates : Nat) (found : List Int) : List Nat :=
  ((found.filter fun i => decide (0 ≤ i ∧ i < (candidates : Int))).map Int.toNat).eraseDups

/-- The positions that a reply names. -/
def parseRelevant (reply : String) (candidates : Nat) : Except JudgeError (List Nat) :=
  (readReply relevantField? reply).map (positions candidates)

end StaleDocs.Judge
