import Mathlib.Algebra.Order.Field.Rat

-- Primary keys of users, providers, models, keys and usage records.
abbrev UUID := Nat

-- Readings of the clock, in milliseconds.
abbrev Time := Nat

-- A row of `credit_accounts`. Amounts in USD are decimals, and all arithmetic on them is exact.
structure CreditAccount where
  balanceUsd            : ℚ
  lastTopupAmount       : Option ℚ
  lastTopupAt           : Option Time
  lowBalanceAlertSentAt : Option Time
deriving DecidableEq

inductive TransactionType
  | freeCredit
  | topup
  | usage
deriving DecidableEq

-- A row of `credit_transactions`.
structure CreditTransaction where
  userId                : UUID
  type                  : TransactionType
  amountUsd             : ℚ
  balanceAfter          : ℚ
  stripePaymentIntentId : Option String
  usageRecordId         : Option UUID
deriving DecidableEq

-- The sum of the amounts booked for a user.
def ledgerSum (u : UUID) (txs : List CreditTransaction) : ℚ :=
  txs.map (fun tx => if tx.userId = u then tx.amountUsd else 0) |>.sum

@[simp]
theorem ledgerSum_append :
    ledgerSum u (txs₁ ++ txs₂) = ledgerSum u txs₁ + ledgerSum u txs₂ := by
  simp [ledgerSum]

@[simp]
theorem ledgerSum_nil : ledgerSum u [] = 0 :=
  rfl

@[simp]
theorem ledgerSum_singleton :
    ledgerSum u [tx] = if tx.userId = u then tx.amountUsd else 0 := by
  simp [ledgerSum]
