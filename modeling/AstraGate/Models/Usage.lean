import AstraGate.Models.Provider

-- A row of `usage_records`.
structure UsageRecord where
  id              : UUID
  virtualKeyId    : UUID
  userId          : UUID
  modelId         : UUID
  providerId      : UUID
  modelName       : String
  providerName    : String
  inputTokens     : Int
  outputTokens    : Int
  totalTokens     : Int
  baseCostUsd     : ℚ
  markupRate      : ℚ
  billedAmountUsd : ℚ
  latencyMs       : Nat
  cacheHit        : Bool
  isFallback      : Bool
deriving DecidableEq

-- What the database stores of the rows that a session flushes: amounts have six decimals, balances
-- of providers have four, and so have markup rates.
def UsageRecord.store (record : UsageRecord) : UsageRecord :=
  { record with
    baseCostUsd     := Numeric.quantize 6 record.baseCostUsd
    markupRate      := Numeric.quantize 4 record.markupRate
    billedAmountUsd := Numeric.quantize 6 record.billedAmountUsd }

def CreditAccount.store (account : CreditAccount) : CreditAccount :=
  { account with
    balanceUsd      := Numeric.quantize 6 account.balanceUsd
    lastTopupAmount := account.lastTopupAmount.map (Numeric.quantize 2) }

def CreditTransaction.store (tx : CreditTransaction) : CreditTransaction :=
  { tx with
    amountUsd    := Numeric.quantize 6 tx.amountUsd
    balanceAfter := Numeric.quantize 6 tx.balanceAfter }

-- Rows whose amounts are no longer than the columns are wide. Others make the flush raise.
def CreditAccount.Storable (account : CreditAccount) : Prop :=
  Numeric.Takes 12 6 account.balanceUsd ∧
    ∀ amount ∈ account.lastTopupAmount, Numeric.Takes 10 2 amount

instance : DecidablePred CreditAccount.Storable :=
  fun _ => inferInstanceAs (Decidable (_ ∧ _))

def CreditTransaction.Storable (tx : CreditTransaction) : Prop :=
  Numeric.Takes 12 6 tx.amountUsd ∧ Numeric.Takes 12 6 tx.balanceAfter

instance : DecidablePred CreditTransaction.Storable :=
  fun _ => inferInstanceAs (Decidable (_ ∧ _))

def ProviderBalanceLog.store (log : ProviderBalanceLog) : ProviderBalanceLog :=
  { log with
    amountUsd     := Numeric.quantize 6 log.amountUsd
    balanceBefore := Numeric.quantize 4 log.balanceBefore
    balanceAfter  := Numeric.quantize 4 log.balanceAfter }
