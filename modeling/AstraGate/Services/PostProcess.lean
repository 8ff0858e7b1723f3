import AstraGate.Lib.Json
import AstraGate.Models.Model
import AstraGate.Models.Usage
import AstraGate.Models.VirtualKey
import AstraGate.Services.ProviderBalance

open Python

namespace PostProcess

-- The arguments of `post_process_usage`.
structure Arguments where
  requestId       : String
  virtualKeyId    : UUID
  userId          : UUID
  modelId         : UUID
  providerId      : UUID
  litellmResponse : Json.Fields
  markupRate      : ℚ
  startTime       : Time
  isFallback      : Bool

structure TokenCounts where
  promptTokens     : Int
  completionTokens : Int
  totalTokens      : Int
deriving DecidableEq

-- `int(usage.get(key) or default)`
def tokenCount (intOf : Json.IntOf) (usage : Json) (key : String) (default : Int) :
    Except Error Int := do
  let count ← usage.get key .null
  if count.truthy then count.toInt intOf else return default

-- `_extract_usage`
def extractUsage (intOf : Json.IntOf) (response : Json.Fields) : Except Error TokenCounts := do
  let usage := response.get "usage" .null
  let usage := if usage.truthy then usage else .dict []
  let promptTokens ← tokenCount intOf usage "prompt_tokens" 0
  let completionTokens ← tokenCount intOf usage "completion_tokens" 0
  let totalTokens ← tokenCount intOf usage "total_tokens" (promptTokens + completionTokens)
  return { promptTokens, completionTokens, totalTokens }

-- `_detect_cache_hit`
def detectCacheHit (response : Json.Fields) : Bool :=
  (response.get "cache_hit" .null).isTrue ||
    match response.get "_hidden_params" .null with
    | .dict hidden => (Json.Fields.get hidden "cache_hit" .null).isTrue
    | _            => false

-- `_resolve_model_name`
def resolveModelName (response : Json.Fields) (fallbackModel : Model) : String :=
  match response.get "model" .null with
  | .str candidate => if candidate ≠ "" then candidate else fallbackModel.modelId
  | _              => fallbackModel.modelId

-- `_compute_latency_ms`
def computeLatencyMs (now startTime : Time) : Nat :=
  now - startTime

-- `_compute_base_cost`
def computeBaseCost (promptTokens completionTokens : Int)
    (inputPricePer1m outputPricePer1m : ℚ) : ℚ :=
  let inputCost := promptTokens / 1000000 * inputPricePer1m
  let outputCost := completionTokens / 1000000 * outputPricePer1m
  inputCost + outputCost

-- `billed_amount` of a response that has not come from the cache.
def billedAmount (baseCost markupRate : ℚ) : ℚ :=
  baseCost * (1 + markupRate)

structure Bill where
  tokens       : TokenCounts
  cacheHit     : Bool
  baseCost     : ℚ
  billedAmount : ℚ
deriving DecidableEq

-- What a response costs: nothing if it has come from the cache.
def bill (intOf : Json.IntOf) (model : Model) (markupRate : ℚ) (response : Json.Fields) :
    Except Error Bill := do
  let tokens ← extractUsage intOf response
  if detectCacheHit response then
    return { tokens, cacheHit := true, baseCost := 0, billedAmount := 0 }
  else
    let baseCost := computeBaseCost tokens.promptTokens tokens.completionTokens
      model.inputPricePer1m model.outputPricePer1m
    return { tokens, cacheHit := false, baseCost, billedAmount := billedAmount baseCost markupRate }

theorem bill_ok_iff : bill intOf model markupRate response = .ok b ↔
    ∃ tokens, extractUsage intOf response = .ok tokens ∧
      b = if detectCacheHit response then
        { tokens, cacheHit := true, baseCost := 0, billedAmount := 0 }
      else
        let baseCost := computeBaseCost tokens.promptTokens tokens.completionTokens
          model.inputPricePer1m model.outputPricePer1m
        { tokens, cacheHit := false, baseCost,
          billedAmount := billedAmount baseCost markupRate } := by
  unfold bill
  cases extractUsage intOf response
  case error e   => exact iff_of_false nofun (by simp)
  case ok tokens =>
    have hb : ∀ {x : Bill}, (pure x : Except Error Bill) = .ok b ↔ b = x := by
      intro x
      exact ⟨fun h => (Except.ok.inj h).symm, fun h => congrArg _ h.symm⟩
    cases detectCacheHit response <;> simp [Bind.bind, Except.bind, hb]

theorem cacheHit_of_bill (h : bill intOf model markupRate response = .ok b) :
    b.cacheHit = detectCacheHit response := by
  have ⟨tokens, _, hb⟩ := bill_ok_iff.mp h
  rw [hb]
  split <;> simp_all

theorem costs_of_bill (h : bill intOf model markupRate response = .ok b) (hc : b.cacheHit) :
    b.baseCost = 0 ∧ b.billedAmount = 0 := by
  have ⟨tokens, _, hb⟩ := bill_ok_iff.mp h
  rw [cacheHit_of_bill h] at hc
  rw [hb, if_pos hc]
  exact ⟨rfl, rfl⟩

-- The row that is inserted into `usage_records`.
def usageRecord (id : UUID) (now : Time) (args : Arguments) (model : Model) (provider : Provider)
    (bill : Bill) : UsageRecord where
  id              := id
  virtualKeyId    := args.virtualKeyId
  userId          := args.userId
  modelId         := model.id
  providerId      := args.providerId
  modelName       := resolveModelName args.litellmResponse model
  providerName    := provider.name
  inputTokens     := bill.tokens.promptTokens
  outputTokens    := bill.tokens.completionTokens
  totalTokens     := bill.tokens.totalTokens
  baseCostUsd     := bill.baseCost
  markupRate      := args.markupRate
  billedAmountUsd := bill.billedAmount
  latencyMs       := computeLatencyMs now args.startTime
  cacheHit        := bill.cacheHit
  isFallback      := args.isFallback

-- The mail to a customer whose balance is low is not sent again for a day.
def lowBalanceAlertCooldown : Time :=
  86400000

-- Whether a customer has less than a fifth of the last top-up left, and is to be told.
def shouldSendLowBalanceAlert (now : Time) (account : CreditAccount) : Bool :=
  match account.lastTopupAmount.filter (· ≠ 0) with
  | none                 => false
  | some lastTopupAmount =>
    account.balanceUsd < lastTopupAmount * (20 / 100) &&
      account.lowBalanceAlertSentAt.all (· + lowBalanceAlertCooldown < now)

-- The account after the check of its balance. The mail may fail to be sent.
def checkLowBalance (now : Time) (sent : Bool) (account : CreditAccount) : CreditAccount :=
  if shouldSendLowBalanceAlert now account && sent then
    { account with lowBalanceAlertSentAt := some now }
  else
    account

-- The `UPDATE` of the counters of a key.
def bumpCounters (now : Time) (totalTokens : Int) (key : VirtualKey) : VirtualKey :=
  { key with
    totalRequests := key.totalRequests + 1
    totalTokens   := key.totalTokens + totalTokens
    lastUsedAt    := some now }

-- What a request that is not answered from the cache charges its provider, and when.
structure Charge where
  now           : Time
  requestId     : String
  usageRecordId : UUID
  baseCost      : ℚ
deriving DecidableEq

-- The row of a provider after the transaction of `_post_process_in_session`, which is rolled back
-- if the deduction raises.
def chargeProvider (id : UUID) (c : Charge) (row : ProviderRow) : ProviderRow :=
  let deducted := ProviderBalance.deductProviderBalance id c.baseCost c.requestId c.usageRecordId
    none row.toProvider
  match deducted with
  | .error _       => row
  | .ok (provider, _) => (ProviderBalance.checkThresholds c.now provider).provider.store

end PostProcess
