import AstraGate.Lib.Table
import AstraGate.Middleware.VirtualKeyAuth
import AstraGate.Services.Credit
import AstraGate.Services.PostProcess
import AstraGate.Services.VirtualKey

open Function

namespace PostProcess

-- Ids of the background tasks, and of the requests that revoke a key.
abbrev TaskId := Nat

-- What a call of `_post_process_in_session` has in memory once it has inserted its usage record:
-- the record as the database stores it, and the other rows that it has inserted.
structure Work where
  args     : Arguments
  provider : Provider
  bill     : Bill
  record   : UsageRecord
  txs      : List CreditTransaction
  logs     : List ProviderBalanceLog
  hit      : bill.cacheHit → bill.baseCost = 0 ∧ bill.billedAmount = 0
  recorded : ∃ id now model provider, record = (usageRecord id now args model provider bill).store

-- How far the call has come since then: `release_hold` or `settle_credit` looks up the held amount,
-- adjusts the account, and removes the key from Redis. What follows up to `checked` is skipped for
-- a response from the cache.
inductive Phase
  | inserted
  | looked (heldAmount : Option ℚ)
  | adjusted (account : Option CreditAccount)
  | cleaned (account : Option CreditAccount)
  | alerted
  | deducted
  | checked
  | bumped

-- Nothing is left to be done before the counters of the key.
def Phase.isLast (cacheHit : Bool) : Phase → Bool
  | cleaned _ => cacheHit
  | checked   => true
  | _         => false

-- What else writes to the row of a key: `revoke_virtual_key` and `_update_last_used_at`.
inductive KeyUpdate
  | revoke
  | touch
deriving DecidableEq

def KeyUpdate.apply (now : Time) (key : VirtualKey) : KeyUpdate → VirtualKey
  | revoke => key.revoke now
  | touch  => VirtualKeyAuth.updateLastUsedAt now key

-- How far a task has come. A failed task is as it was when its transaction was rolled back.
inductive Task
  | fresh
  -- A call that has read the clock, and one that has loaded the model and locked the provider.
  | started (args : Arguments) (now : Time)
  | selected (args : Arguments) (now : Time) (model : Model) (provider : Provider)
  | working (phase : Phase) (w : Work)
  | loaded (id : UUID) (change : KeyUpdate)
  | written
  | over
  | failed (task : Task)

namespace Task

def args : Task → Option Arguments
  | started args _ | selected args .. => some args
  | working _ w                       => some w.args
  | failed task                       => task.args
  | _                                 => none

-- The usage record that the task has inserted, and that is not committed.
def record : Task → Option UsageRecord
  | working _ w => some w.record
  | _           => none

-- The task can fail, and has a transaction to be rolled back.
def isOpen : Task → Bool
  | started .. | selected .. | working .. | written => true
  | _                                               => false

end Task

-- The committed rows of the database, the rows that are locked, and the keys in Redis by request.
structure State where
  now       : Time
  providers : Table UUID TaskId (Option ProviderRow)
  accounts  : Table UUID TaskId (Option CreditAccount)
  keys      : Table UUID TaskId (Option VirtualKey)
  usage     : List UsageRecord
  txs       : List CreditTransaction
  logs      : List ProviderBalanceLog
  holds     : String → Option Credit.Hold
  tasks     : TaskId → Task

-- The database as every other transaction sees it.
structure Committed where
  providers : UUID → Option ProviderRow
  accounts  : UUID → Option CreditAccount
  keys      : UUID → Option VirtualKey
  usage     : List UsageRecord
  txs       : List CreditTransaction
  logs      : List ProviderBalanceLog

namespace State

variable (s : State)

def committed : Committed where
  providers := s.providers.rows
  accounts  := s.accounts.rows
  keys      := s.keys.rows
  usage     := s.usage
  txs       := s.txs
  logs      := s.logs

def setTask (t : TaskId) (k : Task) : State :=
  { s with tasks := update s.tasks t k }

def lockProvider (t : TaskId) (id : UUID) (provider : Provider) : State :=
  { s with providers := s.providers.lock id t (some provider.store) }

def lockAccount (t : TaskId) (userId : UUID) (account : Option CreditAccount) : State :=
  { s with accounts := s.accounts.lock userId t (account.map CreditAccount.store) }

def lockKey (t : TaskId) (id : UUID) (key : VirtualKey) : State :=
  { s with keys := s.keys.lock id t (some key) }

-- The `DEL` of `_release_redis_hold`. Its failure is swallowed.
def deleteHold (requestId : String) (ok : Bool) : State :=
  { s with holds := if ok then update s.holds requestId none else s.holds }

def commit (t : TaskId) (usage : List UsageRecord) (txs : List CreditTransaction)
    (logs : List ProviderBalanceLog) : State :=
  { s with
    providers := s.providers.commitBy t
    accounts  := s.accounts.commitBy t
    keys      := s.keys.commitBy t
    usage     := s.usage ++ usage
    txs       := s.txs ++ txs
    logs      := s.logs ++ logs }.setTask t .over

def rollback (t : TaskId) : State :=
  { s with
    providers := s.providers.rollbackBy t
    accounts  := s.accounts.rollbackBy t
    keys      := s.keys.rollbackBy t }.setTask t (.failed <| s.tasks t)

-- The id is neither the primary key of a usage record, nor that of a record yet to be committed.
def Unused (id : UUID) : Prop :=
  (∀ record ∈ s.usage, record.id ≠ id) ∧
    ∀ t record, (s.tasks t).record = some record → record.id ≠ id

structure Initial : Prop where
  fresh     : ∀ t, s.tasks t = .fresh
  providers : s.providers.Quiet
  accounts  : s.accounts.Quiet
  keys      : s.keys.Quiet

end State

-- One user with one key, before the first call. All providers look alike.
namespace Sample

def intOf : Json.IntOf :=
  ⟨fun _ => .error .valueError, fun _ => .error .valueError⟩

def model : Model :=
  ⟨3, 4, "gpt-4o", 2, 8, none, true⟩

def provider : ProviderRow :=
  Provider.store ⟨"openai", 100, 10, 2, .normal, none, none, none, true⟩

def key : VirtualKey :=
  ⟨2, 1, "Default Key", none, "x", "x", true, none, none, 0, 0, none⟩

def state (holds : String → Option Credit.Hold) : State where
  now       := 0
  providers := ⟨fun _ => some provider, fun _ => none⟩
  accounts  := ⟨fun u => if u = 1 then some ⟨5, some 10, none, none⟩ else none, fun _ => none⟩
  keys      := ⟨fun id => if id = 2 then some key else none, fun _ => none⟩
  usage     := []
  txs       := []
  logs      := []
  holds     := holds
  tasks     := fun _ => .fresh

def args (requestId : String) (providerId : UUID) (response : Json.Fields) : Arguments :=
  ⟨requestId, 2, 1, 3, providerId, response, 1 / 4, 0, false⟩

theorem unused {id : UUID} : (state holds).Unused id :=
  ⟨by simp [state], by simp [state, Task.record]⟩

end Sample
end PostProcess
