import AstraGate.Api.Auth
import AstraGate.Api.Billing
import AstraGate.Execution.Credit.State
import AstraGate.Lib.Steps

open Function

namespace Credit

namespace State

variable (s : State)

def signup (u : UUID) : State :=
  { s with
    accounts := { s.accounts with rows := update s.accounts.rows u (some Auth.newAccount) }
    ledger   := s.ledger ++ [Auth.signupCredit u] }

-- `SELECT … FOR UPDATE` and the flush that follows it: the new version of the row is not committed.
def lock (r : RequestId) (u : UUID) (account : Option CreditAccount) (t : Task) : State :=
  { s with accounts := s.accounts.lock u r account }.setTask r t

def commit (r : RequestId) (u : UUID) (account : Option CreditAccount)
    (txs : List CreditTransaction) (t : Task) : State :=
  { s with accounts := s.accounts.commit u account, ledger := s.ledger ++ txs }.setTask r t

def rollback (r : RequestId) (u : UUID) : State :=
  { s with accounts := s.accounts.rollback u }.setTask r (.aborted <| s.tasks r)

-- The `SET` at the end of `hold_credit`. Its failure is swallowed.
def set (r : RequestId) (q : Request) (ok : Bool) : State :=
  { s with
    holds := if ok then update s.holds r (holdKey q.userId q.amount s.now) else s.holds }.setTask r
    (.stored { q with setAt := if ok then some s.now else q.setAt })

-- The `GET` of `_get_hold_amount`. Its failure is swallowed.
def get (r : RequestId) (q : Request) (how : Resolution) (ok : Bool) : State :=
  s.setTask r <| .looked q how {
    getAt      := if ok then some s.now else none
    heldAmount := getHoldAmount (s.holds r) s.now ok }

-- The `DEL` of `_release_redis_hold`. Its failure is swallowed.
def delete (r : RequestId) (t : Task) (ok : Bool) : State :=
  { s with holds := if ok then update s.holds r none else s.holds }.setTask r t

@[simp]
theorem lock_accounts : (s.lock r u account t).accounts = s.accounts.lock u r account :=
  rfl

@[simp]
theorem lock_tasks : (s.lock r u account t).tasks = update s.tasks r t :=
  rfl

@[simp]
theorem commit_accounts : (s.commit r u account txs t).accounts = s.accounts.commit u account :=
  rfl

@[simp]
theorem commit_tasks : (s.commit r u account txs t).tasks = update s.tasks r t :=
  rfl

@[simp]
theorem rollback_accounts : (s.rollback r u).accounts = s.accounts.rollback u :=
  rfl

@[simp]
theorem rollback_tasks : (s.rollback r u).tasks = update s.tasks r (.aborted <| s.tasks r) :=
  rfl

@[simp]
theorem set_tasks :
    (s.set r q ok).tasks =
      update s.tasks r (.stored { q with setAt := if ok then some s.now else q.setAt }) :=
  rfl

@[simp]
theorem set_holds :
    (s.set r q ok).holds =
      if ok then update s.holds r (holdKey q.userId q.amount s.now) else s.holds :=
  rfl

@[simp]
theorem delete_holds :
    (s.delete r t ok).holds = if ok then update s.holds r none else s.holds :=
  rfl

@[simp]
theorem delete_tasks : (s.delete r t ok).tasks = update s.tasks r t :=
  rfl

end State

-- What `settle_credit` or `release_hold` makes of the locked row.
def Resolution.apply (how : Resolution) (u : UUID) (heldAmount : Option ℚ)
    (account : Option CreditAccount) : Option CreditAccount × List CreditTransaction :=
  match how, heldAmount with
  | settle actualCost usageRecordId, _ =>
    settleCredit u actualCost usageRecordId heldAmount account
  | release, some heldAmount => (releaseHold heldAmount account, [])
  | release, none            => (account, [])

-- The steps of the handlers between two points at which another request can get its turn. A step
-- that needs a row's lock waits until the row is free.
inductive Step (s : State) : State → Type
  | tick (d : Time) : Step s { s with now := s.now + d }
  | signup (u : UUID) (new : s.accounts.rows u = none) (free : s.accounts.Free u) :
    Step s (s.signup u)
  | refuse (r : RequestId) (u : UUID) (amount : ℚ) (error : InsufficientCreditError)
    (task : s.tasks r = .fresh) (free : s.accounts.Free u)
    (refused : holdCredit (s.accounts.rows u) amount = .error error) :
    Step s (s.setTask r <| .rejected error)
  | hold (r : RequestId) (u : UUID) (amount : ℚ) (account : CreditAccount)
    (task : s.tasks r = .fresh) (free : s.accounts.Free u)
    (covered : holdCredit (s.accounts.rows u) amount = .ok account) :
    Step s (s.lock r u account <| .holding { userId := u, amount, setAt := none })
  | set (r : RequestId) (q : Request) (ok : Bool) (task : s.tasks r = .holding q) :
    Step s (s.set r q ok)
  | commitHold (r : RequestId) (q : Request) (account : Option CreditAccount)
    (task : s.tasks r = .stored q) (locked : s.accounts.pending q.userId = some (r, account)) :
    Step s (s.commit r q.userId account [] <| .held q)
  | get (r : RequestId) (q : Request) (how : Resolution) (ok : Bool)
    (task : s.tasks r = .held q) : Step s (s.get r q how ok)
  | skip (r : RequestId) (q : Request) (l : Lookup) (task : s.tasks r = .looked q .release l)
    (lost : l.heldAmount = none) : Step s (s.setTask r <| .resolved q .release l)
  | select (r : RequestId) (q : Request) (how : Resolution) (l : Lookup)
    (account : Option CreditAccount) (txs : List CreditTransaction)
    (task : s.tasks r = .looked q how l) (found : how = .release → l.heldAmount ≠ none)
    (free : s.accounts.Free q.userId)
    (applied : how.apply q.userId l.heldAmount (s.accounts.rows q.userId) = (account, txs)) :
    Step s (s.lock r q.userId account <| .adjusted q how l txs)
  | delete (r : RequestId) (q : Request) (how : Resolution) (l : Lookup)
    (txs : List CreditTransaction) (ok : Bool) (task : s.tasks r = .adjusted q how l txs) :
    Step s (s.delete r (.cleaned q how l txs) ok)
  | commit (r : RequestId) (q : Request) (how : Resolution) (l : Lookup)
    (txs : List CreditTransaction) (account : Option CreditAccount)
    (task : s.tasks r = .cleaned q how l txs)
    (locked : s.accounts.pending q.userId = some (r, account)) :
    Step s (s.commit r q.userId account txs <| .resolved q how l)
  | topup (r : RequestId) (u : UUID) (amount : ℚ) (paymentIntentId : String)
    (old new : CreditAccount) (tx : CreditTransaction) (task : s.tasks r = .fresh)
    (free : s.accounts.Free u) (found : s.accounts.rows u = some old)
    (credited : Billing.topUp s.now u amount paymentIntentId old = (new, tx)) :
    Step s (s.lock r u new <| .crediting s.now u amount tx)
  | commitTopup (r : RequestId) (now : Time) (u : UUID) (amount : ℚ) (tx : CreditTransaction)
    (account : Option CreditAccount) (task : s.tasks r = .crediting now u amount tx)
    (locked : s.accounts.pending u = some (r, account)) :
    Step s (s.commit r u account [tx] .finished)
  | abort (r : RequestId) (u : UUID) (account : Option CreditAccount)
    (locked : s.accounts.pending u = some (r, account)) : Step s (s.rollback r u)

abbrev Run := Steps Step

end Credit
