import AstraGate.Lib.Decimal.Spelling
import AstraGate.Lib.Decimal.Context
import AstraGate.Lib.Json
import AstraGate.Lib.Python.Int
import AstraGate.Models.Usage
import Mathlib.Logic.Function.Basic

open Function Python

namespace Billing

-- `uuid.UUID(text)`: `none` where it raises `ValueError`.
def parseUuid (text : String) : Option UUID := do
  let hex := remove "uuid:".toList 0 (remove "urn:".toList 0 text.toList)
  let hex := stripBy (· ∈ ['{', '}']) hex |>.filter (· ≠ '-')
  let n ← if hex.length = 32 then int? 16 hex else none
  if 0 ≤ n ∧ n < 2 ^ 128 then some n.toNat else none

structure Metadata where
  userId : Option String
  amount : Option String

structure PaymentIntent where
  id       : String
  metadata : Metadata

structure Event where
  type   : String
  object : PaymentIntent

-- The committed rows of `credit_accounts` and `credit_transactions`.
structure Database where
  creditAccounts     : UUID → Option CreditAccount
  creditTransactions : List CreditTransaction

inductive Response
  | success
  | ignoredInvalidMetadata
  | notFound
  | internalError
deriving DecidableEq

-- What `stripe_webhook` makes of the locked row, and the row it inserts into
-- `credit_transactions`.
def topUpTo (balanceAfter : ℚ) (now : Time) (userId : UUID) (amount : ℚ)
    (paymentIntentId : String) : CreditAccount × CreditTransaction :=
  let account := {
    balanceUsd := balanceAfter, lastTopupAmount := some amount, lastTopupAt := some now,
    lowBalanceAlertSentAt := none }
  let tx := {
    userId, type := .topup, amountUsd := amount, balanceAfter,
    stripePaymentIntentId := some paymentIntentId, usageRecordId := none }
  (account, tx)

-- The rows where the sum is exact.
def topUp (now : Time) (userId : UUID) (amount : ℚ) (paymentIntentId : String)
    (account : CreditAccount) : CreditAccount × CreditTransaction :=
  topUpTo (account.balanceUsd + amount) now userId amount paymentIntentId

-- The driver sends no more digits behind the point to the database.
def maxScale : ℤ :=
  16383

-- The rows as they are stored. An infinity fits no column; NaN, which would be stored, is refused
-- with it.
def storeTopUp (now : Time) (userId : UUID) (amount : Decimal) (paymentIntentId : String)
    (account : CreditAccount) : Option (CreditAccount × CreditTransaction) :=
  match amount with
  | .finite d =>
    let balanceAfter := Decimal.inContext 28 (account.balanceUsd + d.value)
    let (account, tx) := topUpTo balanceAfter now userId d.value paymentIntentId
    if -maxScale ≤ d.magnitude.exponent ∧ account.Storable ∧ tx.Storable then
      some (account.store, tx.store)
    else
      none
  | _ => none

-- A text of the metadata that is present and not empty.
def nonempty? (text : Option String) : Option String :=
  text.filter (· ≠ "")

-- The handler for an event whose signature has been verified. An amount that is no decimal raises
-- `InvalidOperation`, which is no `ValueError`, so it is not answered as invalid metadata.
def stripeWebhook (now : Time) (event : Event) (db : Database) : Response × Database :=
  if event.type = "payment_intent.succeeded" then
    match nonempty? event.object.metadata.userId, nonempty? event.object.metadata.amount with
    | some userIdStr, some amountStr =>
      match parseUuid userIdStr with
      | none => (.ignoredInvalidMetadata, db)
      | some userId =>
        match Decimal.parse amountStr with
        | none => (.internalError, db)
        | some amount =>
          match db.creditAccounts userId with
          | none => (.notFound, db)
          | some account =>
            match storeTopUp now userId amount event.object.id account with
            | none => (.internalError, db)
            | some (account, tx) =>
              (.success, {
                creditAccounts := update db.creditAccounts userId (some account)
                creditTransactions := db.creditTransactions ++ [tx] })
    | _, _ => (.success, db)
  else
    (.success, db)

-- Puts a hyphen behind each of the groups of digits that are followed by others.
def hyphenate : (groups : List Nat) → (digits : List Char) → List Char
  | [], digits          => digits
  | n :: groups, digits => digits.take n ++ '-' :: hyphenate groups (digits.drop n)

-- `str(userId)`
def uuidStr (userId : UUID) : String :=
  .ofList <| hyphenate [8, 4, 4, 4] (Json.hexDigits 32 userId)

-- The body of a request for a top-up.
structure TopupRequest where
  amount : Decimal.Unsigned
  ge     : 5 ≤ amount.value

-- What `stripe.checkout.Session.create` is called with. The currency is "usd" and the quantity one.
structure SessionParams where
  description       : String
  unitAmount        : ℤ
  paymentIntentData : Metadata
  successUrl        : String
  cancelUrl         : String

inductive TopupSession
  | mock (sessionId checkoutUrl : String)
  | checkout (params : SessionParams)
  | failed

-- The arithmetic on the amount can overflow.
def checkoutParams (origin : String) (userId : UUID) (body : TopupRequest) :
    Option SessionParams := do
  let cents ← Decimal.operate 28 (body.amount.value * 100)
  return {
    description       :=
      "Add $" ++ Decimal.format 2 body.amount.value ++ " USD prepaid credits to account"
    unitAmount        := Decimal.truncate cents
    paymentIntentData := { userId := some (uuidStr userId), amount := some body.amount.str }
    successUrl        := origin ++ "/dashboard/billing?success=true"
    cancelUrl         := origin ++ "/dashboard/billing?cancel=true" }

-- The header `Origin`, which is looked up regardless of its case.
def createTopupSession (isMockStripe : Bool) (uuid4 : UUID) (originHeader : Option String)
    (userId : UUID) (body : TopupRequest) : TopupSession :=
  let origin := nonempty? originHeader |>.getD "http://localhost:3000"
  if isMockStripe then
    let sessionId := "mock_session_" ++ uuidStr uuid4
    .mock sessionId (origin ++ "/dashboard/billing?mock_stripe_session=true&amount=" ++
      body.amount.str ++ "&session_id=" ++ sessionId)
  else
    checkoutParams origin userId body |>.elim .failed .checkout

end Billing
