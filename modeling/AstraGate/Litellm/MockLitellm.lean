import AstraGate.Lib.Json.Text

open Python

-- The shim that stands in for the LiteLLM proxy in local development. It translates requests for
-- Gemini, and the answers of Gemini back.
namespace MockLitellm

structure GeminiResponse where
  statusCode : Nat
  text       : String

-- An exception that leaves a handler: `httpError` if Gemini cannot be reached.
inductive Exn
  | httpError
  | error (e : Error)

-- What the shim finds when it is called. `add` is the sum of two values that are not both `int`.
structure Env where
  geminiApiKey : String
  post         : (payload : Json) → Except Exn GeminiResponse
  loads        : String → Option Json
  add          : Json → Json → Except Error Json
  isPrintable  : Char → Bool
  completionId : String
  created      : Int

def lift (x : Except Error α) : Except Exn α :=
  x.mapError .error

inductive Response
  | failed (statusCode : Nat) (content : Json)
  | json (content : Json.Fields)
  | sse (chunks : List (List UInt8))

-- The text of an answer, and the tokens that it is said to have used.
structure Completion where
  text             : String
  promptTokens     : Json
  completionTokens : Json
  totalTokens      : Json

section Requests

variable (isPrintable : Char → Bool)

-- `sep.join(texts)`
def join (sep : String) (texts : List Json) : Except Error String := do
  let texts ← texts.mapM fun
    | .str s => .ok s
    | _      => .error .typeError
  return sep.intercalate texts

-- `part.get("text", "")`
def partText (part : Json) : Except Error Json :=
  part.get "text" (.str "")

-- The text of the parts that are a `dict`.
def flatten (content : List Json) : Except Error String := do
  let parts := content.filter fun
    | .dict _ => true
    | _       => false
  join " " (← parts.mapM partText)

-- The `content` of a message, once its parts are flattened.
def messageContent (message : Json) : Except Error String := do
  match ← message.get "content" (.str "") with
  | .list parts => flatten parts
  | content     => return content.toStr isPrintable

-- What a message adds to the `contents` and to the system instruction.
def addMessage (contents : List Json × Option String) (message : Json) :
    Except Error (List Json × Option String) := do
  let role ← message.get "role" .null
  let content ← messageContent isPrintable message
  if role.isStr "system" then
    return (contents.1, some <| contents.2.getD "" ++ content)
  else
    let role := if role.isStr "assistant" then "model" else "user"
    let content := .dict [
      ("role", .str role), ("parts", .list [.dict [("text", .str content)]])]
    return (contents.1 ++ [content], contents.2)

-- `_messages_to_gemini`
def messagesToGemini (messages : List Json) : Except Error (List Json × Option String) :=
  messages.foldlM (addMessage isPrintable) ([], none)

-- `_estimate_tokens`
def estimateTokens (text : String) : Nat :=
  max 1 (text.length / 4)

-- `" ".join(str(m.get("content", "")) for m in messages)`
def promptText (messages : List Json) : Except Error String := do
  let contents ← messages.mapM fun message => message.get "content" (.str "")
  return " ".intercalate (contents.map (·.toStr isPrintable))

-- The number of tokens to ask Gemini for at most, if the request has a number: `True` is one.
def generationConfig (maxTokens : Json) : Json.Fields :=
  match maxTokens with
  | .int n     => if 0 < n then [("maxOutputTokens", .int (min n 8192))] else []
  | .bool true => [("maxOutputTokens", .bool true)]
  | _          => []

def payload (contents : List Json) (systemText : Option String) (maxTokens : Json) : Json :=
  let systemInstruction := match systemText.filter (· ≠ "") with
    | some text => [("systemInstruction", .dict [("parts", .list [.dict [("text", .str text)]])])]
    | none      => []
  let config := generationConfig maxTokens
  let generationConfig := if config.isEmpty then [] else [("generationConfig", .dict config)]
  .dict <| [("contents", .list contents)] ++ systemInstruction ++ generationConfig

end Requests

section Completions

variable (env : Env)

-- `x or y`
def orElse (x y : Json) : Json :=
  if x.truthy then x else y

-- `x + y`
def add (x y : Json) : Except Error Json :=
  match x, y with
  | .int n, .int m => .ok (.int (n + m))
  | _, _           => env.add x y

-- What is answered for want of a key.
def fallbackText : String :=
  "Hello! This is a fallback mock response because GEMINI_API_KEY is not set."

def fallbackCompletion (messages : List Json) : Except Error Completion := do
  let promptTokens := estimateTokens (← promptText env.isPrintable messages)
  let completionTokens := estimateTokens fallbackText
  return {
    text             := fallbackText
    promptTokens     := .int promptTokens
    completionTokens := .int completionTokens
    totalTokens      := .int (promptTokens + completionTokens : Nat) }

-- The text of the first candidate.
def candidateText (data : Json) : Except Error String := do
  let candidate ← (← data.item "candidates").head
  let parts ← (← (← candidate.item "content").item "parts").iter
  join "" (← parts.mapM partText)

-- The same, where a key or an item that is missing stands for no text.
def geminiText (data : Json) : Except Error String :=
  match candidateText data with
  | .error .keyError | .error .indexError => .ok ""
  | text                                  => text

-- The answer of Gemini, with an estimate for a count that it does not have.
def geminiCompletion (messages : List Json) (data : Json) : Except Error Completion := do
  let text ← geminiText data
  let usageMeta ← data.get "usageMetadata" (.dict [])
  let promptEstimate := estimateTokens (← promptText env.isPrintable messages)
  let promptTokens := orElse (← usageMeta.get "promptTokenCount" .null) (.int promptEstimate)
  let completionTokens :=
    orElse (← usageMeta.get "candidatesTokenCount" .null) (.int (estimateTokens text))
  let totalTokenCount ← usageMeta.get "totalTokenCount" .null
  let totalTokens ←
    if totalTokenCount.truthy then pure totalTokenCount else add env promptTokens completionTokens
  return { text, promptTokens, completionTokens, totalTokens }

-- What `chat_completions` answers with, whether or not it streams it: the status and the text of an
-- error, or a completion.
def complete (body : Json.Fields) : Except Exn ((Nat × Json) ⊕ Completion) := do
  let messages ← lift (body.get "messages" (.list [])).iter
  let (contents, systemText) ← lift (messagesToGemini env.isPrintable messages)
  if env.geminiApiKey = "" then
    return .inr (← lift (fallbackCompletion env messages))
  else
    let payload := payload contents systemText (body.get "max_tokens" (.int 1024))
    let response ← env.post payload
    if 400 ≤ response.statusCode then
      let error := .dict [("error", .dict [("message", .str response.text)])]
      return .inl (response.statusCode, error)
    else
      match env.loads response.text with
      | some data => return .inr (← lift (geminiCompletion env messages data))
      | none      => throw (.error .valueError)

namespace Completion

variable (c : Completion)

def usage : Json :=
  .dict [
    ("prompt_tokens", c.promptTokens),
    ("completion_tokens", c.completionTokens),
    ("total_tokens", c.totalTokens)]

def answer (model : Json) : Json.Fields := [
  ("id", .str env.completionId),
  ("object", .str "chat.completion"),
  ("created", .int env.created),
  ("model", model),
  ("choices", .list [.dict [
    ("index", .int 0),
    ("message", .dict [("role", .str "assistant"), ("content", .str c.text)]),
    ("finish_reason", .str "stop")]]),
  ("usage", c.usage)]

-- The fields that all chunks of a stream have.
def chunk (model : Json) (delta : Json.Fields) (finishReason : Json) : Json.Fields := [
  ("id", .str env.completionId),
  ("object", .str "chat.completion.chunk"),
  ("created", .int env.created),
  ("model", model),
  ("choices", .list [.dict [
    ("index", .int 0), ("delta", .dict delta), ("finish_reason", finishReason)]])]

def chunkSize : Nat :=
  20

-- The chunks of the text, and the final one.
def chunks (model : Json) : List Json.Fields :=
  (slices chunkSize c.text.toList).map
      (fun piece => chunk env model [("content", .str (.ofList piece))] .null) ++
    [chunk env model [] (.str "stop") ++ [("usage", c.usage)]]

-- `f"data: {json.dumps(chunk)}\n\n".encode("utf-8")`
def event (text : String) : List UInt8 :=
  encode <| "data: ".toList ++ text.toList ++ ['\n', '\n']

def sse (model : Json) : List (List UInt8) :=
  (c.chunks env model).map (fun chunk => event (Json.dumps (.dict chunk))) ++ [event "[DONE]"]

end Completion

def chatCompletions (body : Json.Fields) : Except Exn Response := do
  let requestedModel := body.get "model" (.str "gemini-flash")
  match ← complete env body with
  | .inl (statusCode, content) => return .failed statusCode content
  | .inr completion            =>
    if (body.get "stream" (.bool false)).truthy then
      return .sse (completion.sse env requestedModel)
    else
      return .json (completion.answer env requestedModel)

end Completions
end MockLitellm
