/-
A judge behind a chat completions endpoint. Every question is one request with a system prompt
and the question's prompt; the first choice of the response is the reply. Without candidates
nothing is asked.
-/
import StaleDocs.Judge.Prompt
import StaleDocs.Judge.Reply
import StaleDocs.Text.Blank
import StaleDocs.Text.Utf8

namespace StaleDocs.Judge
open Json (Value)

/-- Where a model is reached, and the key for it. -/
structure Endpoint where
  baseUrl : String
  apiKey : String
  model : String

/-- The address used where none is given. -/
def publicUrl : String := "https://api.openai.com/v1"

/-- What requests say about their sender. -/
def userAgent : String := "docdrift/0.3.0"

/-- An address without blanks around it and slashes at its end. -/
def cleanUrl (url : String) : String :=
  let cs := Text.trim url.toList
  let cs := if cs.isEmpty then publicUrl.toList else cs
  String.ofList (cs.reverse.dropWhile (· = '/')).reverse

/-- An endpoint, which needs a key and a model. -/
def Endpoint.create (url apiKey model : String) : Except JudgeError Endpoint :=
  if (Text.trim apiKey.toList).isEmpty then .error (.unavailable "missing API key")
  else if (Text.trim model.toList).isEmpty then .error (.unavailable "missing model name")
  else .ok ⟨cleanUrl url, apiKey, model⟩

/-- The address that requests go to. -/
def Endpoint.address (e : Endpoint) : String := e.baseUrl ++ "/chat/completions"

/-- Whether a text can stand in the header of a request: a tab is the only control character
that can. -/
def fitsHeader (s : String) : Bool :=
  s.toList.all fun c => c = '\t' || (0x20 ≤ c.toNat && c.toNat ≠ 0x7f)

/-- A request for a completion. -/
structure Request where
  address : String
  authorization : String
  payload : Value

/-- What a request is answered with. -/
structure Response where
  status : Nat
  body : List UInt8

/-- How requests are sent. -/
abbrev Transport (m : Type → Type) := Request → m (Except String Response)

/-- A message of a conversation. -/
def message (role content : String) : Value :=
  .record [("role", .text role), ("content", .text content)]

/-- The request that puts a prompt to the model. -/
def Endpoint.request (e : Endpoint) (system user : String) : Request where
  address := e.address
  authorization := "Bearer " ++ e.apiKey
  payload := .record [
    ("model", .text e.model),
    ("messages", .array [message "system" system, message "user" user]),
    ("response_format", .record [("type", .text "json_object")]),
    ("temperature", .ofFloat 0.1)]

/-- The content of a message. -/
def contentField? : Json.Read String := fun v => do
  match ← Json.fields? ["content"] v with
  | [content] => Record.defaulted "" Json.readText content
  | _ => none

/-- The content of a choice's message. -/
def choiceContent? : Json.Read String := fun v => do
  match ← Json.fields? ["message"] v with
  | [message] => Record.required contentField? message
  | _ => none

/-- The contents of a response's choices. -/
def choiceContents? : Json.Read (List String) := fun v => do
  match ← Json.fields? ["choices"] v with
  | [choices] => Record.defaulted [] (Json.readList choiceContent?) choices
  | _ => none

/-- The body as a text, without the mark of its encoding. -/
def Response.text (r : Response) : String :=
  String.ofList (Text.dropMark (Text.decodeLossy r.body).toList)

/-- The reply that a response carries. -/
def Response.reply (r : Response) : Except JudgeError String :=
  if r.status < 200 || 300 ≤ r.status then .error (.status r.status r.text)
  else
    match Text.decodeUtf8 r.body with
    | (cs, []) =>
      match (Value.parse? (String.ofList cs)).bind choiceContents? with
      | some (content :: _) =>
        if Text.isBlankText content.toList then .error .emptyResponse else .ok content
      | some [] => .error .emptyResponse
      | none => .error .badObject
    | _ => .error .badObject

variable {m : Type → Type} [Monad m]

/-- The reply of the model to a prompt. A key that fits in no request is not sent. -/
def Endpoint.chat (e : Endpoint) (send : Transport m) (system user : String) :
    m (Except JudgeError String) := do
  let request := e.request system user
  if !fitsHeader request.authorization then return .error (.request "builder error")
  else
    match ← send request with
    | .error text => return .error (.request text)
    | .ok response => return response.reply

/-- The judge behind an endpoint. -/
def Endpoint.judge (e : Endpoint) (send : Transport m) : Judge m where
  name := "openai"
  analyze q := do
    return (← e.chat send consistencyPrompt q.prompt).bind parseVerdict
  relevant symbol candidates := do
    if candidates.isEmpty then return .ok []
    else
      let reply ← e.chat send relevancePrompt (relevanceQuestion symbol candidates)
      return reply.bind fun reply => parseRelevant reply candidates.length

end StaleDocs.Judge
