import AstraGate.Api.Gateway.Stream

open Python

namespace Gateway

-- What a handler returns: the answer of the proxy, or a generator that is yet to be run.
inductive Response
  | json (response : Json.Fields)
  | streaming (routed : Routed)

variable (env : Env)

-- Counts that are not finite are refused with the hold at the latest, and here already.
def maxTokens (body : Json.Fields) : Except Error ℚ :=
  match Decimal.parse <| (body.get "max_tokens" (.int 2048)).toStr env.isPrintable with
  | some (.finite maxTokens) => .ok maxTokens.value
  | _                        => .error .invalidOperation

-- What one of the messages adds to the text that is checked.
def messageText : Json → String
  | .dict msg =>
    match msg.lookup "content" with
    | some content => " " ++ content.toStr env.isPrintable
    | none         => ""
  | _ => ""

-- `input_text` of a chat.
def chatText (body : Json.Fields) : Except Error String := do
  let messages ← (body.get "messages" (.list [])).iter
  return messages.foldl (· ++ messageText env ·) ""

def messageContent (message : Json) : Except Error Json := do
  if ← message.contains "content" then
    message.item "content"
  else
    return .str ""

-- `output_text`, which is whatever the answer has for its content.
def outputText (response : Json.Fields) : Except Error Json := do
  let choices := response.get "choices" (.list [])
  if choices.truthy then
    let choice ← choices.head
    messageContent (← choice.get "message" (.dict []))
  else
    return .str ""

-- `input_text` of a request for embeddings.
def embeddingsText (body : Json.Fields) : String :=
  match body.get "input" (.str "") with
  | .str input  => input
  | .list input => " ".intercalate (input.map (·.toStr env.isPrintable))
  | _           => ""

-- The answer to a chat is checked before it is returned and its usage is handed over.
def deliver (routed : Routed) (response : Json.Fields) : Handler Response := do
  let outputText ← lift <| outputText response
  let checked ← lift <| Guardrail.checkOutput env.lower outputText (env.keywords .output)
  screen env .output "Response" checked
  addTask env routed response
  return .json response

-- `chat_completions` once the credit is held.
def serveChat (body : Json.Fields) (model : Model) (markupRate : ℚ) : Handler Response := do
  let inputText ← lift <| chatText env body
  let routed ← approve env body model markupRate inputText
  if (routed.body.get "stream" (.bool false)).truthy then
    return .streaming routed
  else
    let response ← post env .chatCompletions routed.body
    deliver env routed response

def chatCompletions (body : Json.Fields) : Handler Response := do
  let (model, markupRate) ← prepare env body (Endpoint.chat <$> maxTokens env body)
  serveChat env body model markupRate

-- `embeddings` once the credit is held.
def serveEmbeddings (body : Json.Fields) (model : Model) (markupRate : ℚ) : Handler Response := do
  let routed ← approve env body model markupRate (embeddingsText env body)
  let response ← post env .embeddings routed.body
  addTask env routed response
  return .json response

def embeddings (body : Json.Fields) : Handler Response := do
  let (model, markupRate) ← prepare env body (.ok <| .embeddings <| embeddingsText env body)
  serveEmbeddings env body model markupRate

end Gateway
