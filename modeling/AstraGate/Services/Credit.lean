import AstraGate.Models.Credit

namespace Credit

-- `REDIS_HOLD_TTL`
def redisHoldTtl : Time :=
  60000

structure InsufficientCreditError where
  balance  : ℚ
  required : ℚ
deriving DecidableEq

-- The value of a key `credit_hold:{request_id}`, and the time at which Redis drops the key.
structure Hold where
  userId  : UUID
  amount  : ℚ
  expires : Time
deriving DecidableEq

def estimateMaxCost (_inputPricePer1m outputPricePer1m maxTokens markupRate : ℚ) : ℚ :=
  let tokensFraction := maxTokens / 1000000
  let baseCost := tokensFraction * outputPricePer1m
  let markupMultiplier := 1 + markupRate
  baseCost * markupMultiplier

-- What `hold_credit` makes of the row that `SELECT … FOR UPDATE` returns.
def holdCredit (account : Option CreditAccount) (amount : ℚ) :
    Except InsufficientCreditError CreditAccount :=
  match account with
  | none => .error { balance := 0, required := amount }
  | some account =>
    if account.balanceUsd < amount then
      .error { balance := account.balanceUsd, required := amount }
    else
      .ok { account with balanceUsd := account.balanceUsd - amount }

-- The key as `SET` writes it.
def holdKey (userId : UUID) (amount : ℚ) (now : Time) : Hold :=
  { userId, amount, expires := now + redisHoldTtl }

-- `GET` either fails, which is swallowed, or finds the key if it has not expired.
def getHoldAmount (key : Option Hold) (now : Time) (ok : Bool) : Option ℚ :=
  if ok then key.filter (now < ·.expires) |>.map Hold.amount else none

-- What `settle_credit` makes of the locked row, and the row it inserts into `credit_transactions`.
def settleCredit (userId : UUID) (actualCost : ℚ) (usageRecordId : Option UUID)
    (heldAmount : Option ℚ) (account : Option CreditAccount) :
    Option CreditAccount × List CreditTransaction :=
  match account with
  | none => (none, [])
  | some account =>
    let balanceUsd := match heldAmount with
      | some heldAmount => account.balanceUsd + (heldAmount - actualCost)
      | none            => account.balanceUsd - actualCost
    let transaction := {
      userId, type := .usage, amountUsd := -actualCost, balanceAfter := balanceUsd,
      stripePaymentIntentId := none, usageRecordId }
    (some { account with balanceUsd }, [transaction])

-- What `release_hold` makes of the locked row. It locks no row if it has found no held amount.
def releaseHold (heldAmount : ℚ) (account : Option CreditAccount) : Option CreditAccount :=
  account.map fun account => { account with balanceUsd := account.balanceUsd + heldAmount }

theorem holdCredit_ok {account : Option CreditAccount} {a : CreditAccount}
    (h : holdCredit account amount = .ok a) :
    ∃ b, account = some b ∧ amount ≤ b.balanceUsd ∧
      a = { b with balanceUsd := b.balanceUsd - amount } := by
  cases account <;> simp only [holdCredit] at h
  case none => contradiction
  case some b =>
    split at h
    case isTrue    => contradiction
    case isFalse n => exact ⟨b, rfl, not_lt.mp n, (Except.ok.inj h).symm⟩

end Credit
