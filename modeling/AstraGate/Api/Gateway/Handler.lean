import AstraGate.Lib.Decimal
import AstraGate.Lib.Sql
import AstraGate.Lib.Traced
import AstraGate.Models.Model
import AstraGate.Services.Credit
import AstraGate.Services.Guardrail
import AstraGate.Services.PostProcess

open Python

namespace Gateway

-- The token count that a handler estimates with: `max_tokens` of a chat body, or a guess from the
-- length of an embedding's input.
inductive Endpoint
  | chat (maxTokens : ℚ)
  | embeddings (inputText : String)

def Endpoint.maxTokens : Endpoint → ℚ
  | chat maxTokens       => maxTokens
  | embeddings inputText => (max 1 (inputText.length / 4) : Nat)

-- `estimated_cost`
def Endpoint.estimatedCost (e : Endpoint) (model : Model) (markupRate : ℚ) : ℚ :=
  Credit.estimateMaxCost model.inputPricePer1m model.outputPricePer1m e.maxTokens markupRate

-- What `LiteLLMClient` raises: a timeout, an answer that is no success, or anything else.
inductive LiteLLMError
  | timeout (message : String)
  | http (statusCode : Nat) (body : String)
  | other (message : String)
deriving DecidableEq

-- The paths of the LiteLLM proxy.
inductive Path
  | chatCompletions
  | embeddings
deriving DecidableEq

-- What a handler finds when it is called: its key, the rows and cached values that its queries
-- return, the answers of the LiteLLM proxy, and what the interpreter makes of texts.
structure Env where
  virtualKeyId   : UUID
  userId         : UUID
  requestId      : String
  startTime      : Time
  account        : Option CreditAccount
  models         : List Model
  markupRate     : (modelId providerId : UUID) → Except Sql.Error ℚ
  keywords       : Guardrail.Direction → List Guardrail.Keyword
  providerStatus : UUID → Option ProviderBalance.ProviderStatus
  post           : Path → Json.Fields → Except LiteLLMError Json.Fields
  lower          : String → String
  isPrintable    : Char → Bool
  loads          : String → Option Json

-- An exception that leaves a handler.
inductive Exn
  | httpException (statusCode : Nat) (detail : Json)
  | error (e : Error)
  | sqlError (e : Sql.Error)
  | cancelledError
  | generatorExit

-- What a handler does to the outside. A hold is listed only if it succeeds.
inductive Effect
  | holdCredit (userId : UUID) (requestId : String) (amount : ℚ)
  | releaseHold (userId : UUID) (requestId : String)
  | commit
  | recordViolation (result : Guardrail.GuardrailResult) (direction : Guardrail.Direction)
  | post (path : Path) (body : Json.Fields)
  | send (chunk : List UInt8)
  | addTask (task : PostProcess.Arguments)

abbrev Handler := Traced Effect Exn

def raise (e : Exn) : Handler α :=
  .throw e

def lift (x : Except Error α) : Handler α :=
  .lift (x.mapError .error)

def query (x : Except Sql.Error α) : Handler α :=
  .lift (x.mapError .sqlError)

-- `MODEL_NAME_TO_DB_ID`
def modelNameToDbId : String → String
  | "llama-3.1-8b"  => "groq/llama-3.1-8b-instant"
  | "deepseek-chat" => "deepseek/deepseek-chat"
  | "gemini-flash"  => "gemini/gemini-1.5-flash"
  | modelName       => modelName

-- `DB_ID_TO_MODEL_NAME`
def dbIdToModelName : String → String
  | "groq/llama-3.1-8b-instant" => "llama-3.1-8b"
  | "deepseek/deepseek-chat"    => "deepseek-chat"
  | "gemini/gemini-1.5-flash"   => "gemini-flash"
  | modelId                     => modelId

variable (env : Env)

-- A name that is neither falsy nor a string is refused by the dictionary or by the database driver.
def findModel (body : Json.Fields) : Handler Model :=
  let modelName := body.get "model" .null
  if !modelName.truthy then
    raise <| .httpException 400 <| .str "Missing 'model' parameter in request body"
  else
    match modelName with
    | .str modelName => do
      let rows := env.models.filter fun m => m.modelId = modelNameToDbId modelName ∧ m.isActive
      match ← query (Sql.scalarOneOrNone rows) with
      | some model => pure model
      | none       =>
        raise <| .httpException 404 <| .dict [("error", .dict [
          ("code", .str "model_not_found"),
          ("message", .str ("The model '" ++ modelName ++ "' does not exist or is inactive.")),
          ("type", .str "invalid_request_error")])]
    | _ => raise <| .error .typeError

-- The call of `hold_credit` and the commit after it.
def holdCredit (estimatedCost : ℚ) : Handler Unit :=
  match Credit.holdCredit env.account estimatedCost with
  | .error _ =>
    raise <| .httpException 402 <| .str <|
      "Insufficient credit balance. Required estimate: $" ++ Decimal.format 6 estimatedCost ++ "."
  | .ok _ => do
    .emit <| .holdCredit env.userId env.requestId estimatedCost
    .emit .commit

-- What both handlers start with: they find the model and its markup, estimate the cost and hold it.
def prepare (body : Json.Fields) (endpoint : Except Error Endpoint) : Handler (Model × ℚ) := do
  let model ← findModel env body
  let markupRate ← query <| env.markupRate model.id model.providerId
  let endpoint ← lift endpoint
  holdCredit env <| endpoint.estimatedCost model markupRate
  return (model, markupRate)

-- `release_hold`, the commit after it, and the exception that ends the request.
def refund (statusCode : Nat) (detail : String) : Handler α := do
  .emit <| .releaseHold env.userId env.requestId
  .emit .commit
  raise <| .httpException statusCode <| .str detail

-- What follows the checks of the guardrail.
def screen (direction : Guardrail.Direction) (subject : String)
    (result : Guardrail.GuardrailResult) : Handler Unit :=
  if result.violated then do
    .emit <| .recordViolation result direction
    refund env 400 <|
      subject ++ " blocked by content policy. Matched keyword: " ++
        result.keywordMatched.getD "None"
  else
    pure ()

-- The provider to call, and whether it is a fallback.
def route (providerId : UUID) : Handler (UUID × Bool) :=
  let decision := ProviderBalance.resolveProviderForRequest env.providerStatus providerId 3
  match decision.provider with
  | some provider => pure (provider.providerId, decision.isFallback)
  | none          =>
    refund env 503 <|
      "Upstream provider is currently unavailable (Hard Stop active) and no fallback is " ++
        "configured."

-- The body to forward, and the model that is billed.
def forward (providerId : UUID) (isFallback : Bool) (body : Json.Fields) (model : Model) :
    Json.Fields × Model :=
  if isFallback then
    match env.models.find? fun m => m.providerId = providerId ∧ m.isActive with
    | some fallback =>
      (body.set "model" (.str <| dbIdToModelName fallback.modelId), fallback)
    | none => (body, model)
  else
    (body, model)

-- What is known of a request once its provider has been chosen.
structure Routed where
  inputText  : String
  body       : Json.Fields
  modelId    : UUID
  providerId : UUID
  isFallback : Bool
  markupRate : ℚ

-- What both handlers do between the hold and the call: they check the text and choose a provider.
def approve (body : Json.Fields) (model : Model) (markupRate : ℚ) (inputText : String) :
    Handler Routed := do
  let checked ← lift <| Guardrail.checkInput env.lower (.str inputText) (env.keywords .input)
  screen env .input "Request" checked
  let (providerId, isFallback) ← route env model.providerId
  let (body, model) := forward env providerId isFallback body model
  return { inputText, body, modelId := model.id, providerId, isFallback, markupRate }

-- `post_chat` and `post_embeddings`, and what follows if they raise.
def post (path : Path) (body : Json.Fields) : Handler Json.Fields := do
  .emit <| .post path body
  match env.post path body with
  | .ok response                   => pure response
  | .error (.timeout message)      => refund env 504 message
  | .error (.http statusCode body) => refund env statusCode <| "Upstream provider error: " ++ body
  | .error (.other message)        => refund env 500 <| "LiteLLM connection error: " ++ message

-- What post-processing is called with.
def task (routed : Routed) (response : Json.Fields) : PostProcess.Arguments where
  requestId       := env.requestId
  virtualKeyId    := env.virtualKeyId
  userId          := env.userId
  modelId         := routed.modelId
  providerId      := routed.providerId
  litellmResponse := response
  markupRate      := routed.markupRate
  startTime       := env.startTime
  isFallback      := routed.isFallback

-- `background_tasks.add_task(post_process_usage, …)`
def addTask (routed : Routed) (response : Json.Fields) : Handler Unit :=
  .emit <| .addTask (task env routed response)

end Gateway
