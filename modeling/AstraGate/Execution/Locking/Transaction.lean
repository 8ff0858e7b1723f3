import AstraGate.Lib.Locks
import AstraGate.Models.Credit

-- The transactions that lock rows of users, providers or keys, by the statements that they send.
namespace Locking

inductive Row
  | creditAccount (userId : UUID)
  | provider (id : UUID)
  | virtualKey (id : UUID)
deriving DecidableEq

-- A row is locked by `SELECT … FOR UPDATE` and by `UPDATE`. A statement that finds no row is a
-- plain `SELECT`.
inductive Statement
  | select (table : String)
  | insert (table : String)
  | selectForUpdate (row : Row)
  | update (row : Row)
deriving DecidableEq

def Statement.locks : Statement → Option Row
  | selectForUpdate row | update row => some row
  | select _ | insert _              => none

def holdCredit (userId : UUID) : List Statement :=
  [.selectForUpdate (.creditAccount userId), .update (.creditAccount userId)]

-- Both a settlement and a release may find no account, and a release may find no hold.
def settleCredit (userId : UUID) (found : Bool) : List Statement :=
  if found then
    [.selectForUpdate (.creditAccount userId), .update (.creditAccount userId),
      .insert "credit_transactions"]
  else
    [.select "credit_accounts"]

def releaseHold (userId : UUID) (found : Bool) : List Statement :=
  if found then
    [.selectForUpdate (.creditAccount userId), .update (.creditAccount userId)]
  else
    [.select "credit_accounts"]

-- The alert about a low balance, which is flushed with the next query.
def alertLowBalance (userId : UUID) (sent : Bool) : List Statement :=
  if sent then
    [.select "credit_accounts", .select "users", .update (.creditAccount userId)]
  else
    [.select "credit_accounts"]

def deductProviderBalance (providerId : UUID) : List Statement :=
  [.selectForUpdate (.provider providerId), .update (.provider providerId),
    .insert "provider_balance_log"]

-- A check flushes as often as it changes the provider.
def checkThresholds (providerId : UUID) (changes : Nat) : List Statement :=
  List.replicate changes (.update <| .provider providerId)

-- How post-processing goes on once it has locked its provider.
inductive Outcome
  | missingModel
  | cacheHit (found : Bool)
  | charged (found sent : Bool) (changes : Nat)

def postProcess (providerId userId virtualKeyId : UUID) (outcome : Outcome) : List Statement :=
  [.select "models", .selectForUpdate (.provider providerId)] ++
    match outcome with
    | .missingModel               => []
    | .cacheHit found             =>
      [.insert "usage_records"] ++ releaseHold userId found ++ [.update (.virtualKey virtualKeyId)]
    | .charged found sent changes =>
      [.insert "usage_records"] ++ settleCredit userId found ++ alertLowBalance userId sent ++
        deductProviderBalance providerId ++ checkThresholds providerId changes ++
        [.update (.virtualKey virtualKeyId)]

def stripeWebhook (userId : UUID) : List Statement :=
  [.selectForUpdate (.creditAccount userId), .update (.creditAccount userId),
    .insert "credit_transactions"]

-- `update_thresholds` and `release_hard_stop`
def updateProvider (providerId : UUID) : List Statement :=
  [.select "providers", .update (.provider providerId)]

def updateBalance (providerId : UUID) : List Statement :=
  updateProvider providerId ++ [.insert "provider_balance_log"]

-- `_update_last_used_at` and `revoke_virtual_key`
def updateVirtualKey (virtualKeyId : UUID) : List Statement :=
  [.select "virtual_keys", .update (.virtualKey virtualKeyId)]

inductive Transaction
  | hold (userId : UUID)
  | release (userId : UUID) (found : Bool)
  | postProcess (providerId userId virtualKeyId : UUID) (outcome : Outcome)
  | webhook (userId : UUID)
  | updateProvider (providerId : UUID)
  | updateBalance (providerId : UUID)
  | lastUsed (virtualKeyId : UUID)
  | revoke (virtualKeyId : UUID)

namespace Transaction

def statements : Transaction → List Statement
  | hold userId                                 => holdCredit userId
  | release userId found                        => releaseHold userId found
  | postProcess providerId userId keyId outcome =>
    Locking.postProcess providerId userId keyId outcome
  | webhook userId                              => stripeWebhook userId
  | updateProvider providerId                   => Locking.updateProvider providerId
  | updateBalance providerId                    => Locking.updateBalance providerId
  | lastUsed keyId | revoke keyId               => updateVirtualKey keyId

-- The rows that a transaction locks, and those that it locks again.
def locks (tx : Transaction) : List Row :=
  tx.statements.filterMap Statement.locks

end Transaction

abbrev TaskId := Nat

-- Any number of transactions over any rows. One that rolls back, or leaves out the statements that
-- remain, ends early.
abbrev Run :=
  Steps (Locks.Step (τ := TaskId) { rows | ∃ tx : Transaction, tx.locks = rows })

end Locking
