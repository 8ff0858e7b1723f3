import AstraGate.Api.Gateway.Handler

open Python

namespace Gateway

-- The variables that `stream_generator` fills while it relays the stream.
structure Reconstruction where
  fullText  : String
  usageDict : Json

-- What `client.stream_chat` yields next and what becomes of it: the stream is exhausted, it raises,
-- or the wait for it is cancelled. A chunk that has been relayed is read when the consumer asks for
-- the next one, unless the consumer closes the generator instead.
inductive Stream
  | exhausted
  | raised (error : String)
  | cancelled
  | closed (chunk : List UInt8)
  | next (chunk : List UInt8) (rest : Stream)

namespace Reconstruction

variable (loads : String → Option Json)

def empty : Reconstruction where
  fullText  := ""
  usageDict := .null

def readData (r : Reconstruction) (data : Json) : Except Error Reconstruction := do
  let choices ← data.get "choices" (.list [])
  let mut fullText := r.fullText
  if choices.truthy then
    let delta ← (← choices.head).get "delta" (.dict [])
    if ← delta.contains "content" then
      fullText ← (← delta.item "content").append fullText
  let mut usageDict := r.usageDict
  if ← data.contains "usage" then
    let usage ← data.item "usage"
    if usage.truthy then
      usageDict := usage
  return { fullText, usageDict }

def readLine (r : Reconstruction) (line : List Char) : Except Error Reconstruction :=
  if "data:".toList.isPrefixOf line then
    let dataStr := String.ofList <| strip (line.drop 5)
    if dataStr = "[DONE]" then .ok r
    else
      match loads dataStr with
      | some data => r.readData data
      | none      => .error .valueError
  else
    .ok r

-- A line that raises ends the chunk, but what the lines before it have added is kept.
def readLines (r : Reconstruction) : List (List Char) → Reconstruction
  | []            => r
  | line :: lines =>
    match r.readLine loads line with
    | .ok r    => readLines r lines
    | .error _ => r

def readChunk (r : Reconstruction) (chunk : List UInt8) : Reconstruction :=
  r.readLines loads <| (strip <| decode 0 chunk).splitOn '\n'

-- `litellm_response`, with an estimate for the usage if the stream has not told it.
def response (r : Reconstruction) (inputText : String) : Json.Fields :=
  let promptEst := inputText.length / 4
  let compEst := r.fullText.length / 4
  let usage :=
    if r.usageDict.truthy then r.usageDict
    else
      .dict [
        ("prompt_tokens", .int (max 1 promptEst : Nat)),
        ("completion_tokens", .int (max 1 compEst : Nat)),
        ("total_tokens", .int (max 2 (promptEst + compEst) : Nat))]
  [("usage", usage),
    ("choices", .list [.dict [("message", .dict [("content", .str r.fullText)])]])]

end Reconstruction

-- The loop of `stream_generator`, from where it waits for what comes next, and what follows it. The
-- session of the request is closed by then, so a refund has a transaction of its own.
def relay (env : Env) (routed : Routed) (r : Reconstruction) : Stream → Handler Unit
  | .exhausted    => addTask env routed (r.response routed.inputText)
  | .raised _     => refund env 500 "Stream processing failed mid-way."
  | .cancelled    => raise .cancelledError
  | .closed chunk => do
    .emit <| .send chunk
    raise .generatorExit
  | .next chunk rest => do
    .emit <| .send chunk
    relay env routed (r.readChunk env.loads chunk) rest

def streamGenerator (env : Env) (routed : Routed) (stream : Stream) : Handler Unit := do
  .emit <| .post .chatCompletions routed.body
  relay env routed .empty stream

end Gateway
