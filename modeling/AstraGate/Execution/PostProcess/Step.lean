import AstraGate.Execution.PostProcess.State
import AstraGate.Lib.Steps

open Function

namespace PostProcess

-- `int`, and the rows of `users`.
variable (intOf : Json.IntOf) (users : Set UUID)

-- The call after the insertion of its usage record.
def Task.inserted {intOf : Json.IntOf} (id : UUID) (now : Time) (args : Arguments) (model : Model)
    (provider : Provider) {b : Bill}
    (h : bill intOf model args.markupRate args.litellmResponse = .ok b) : Task :=
  .working .inserted {
    args     := args
    provider := provider
    bill     := b
    record   := (usageRecord id now args model provider b).store
    txs      := []
    logs     := []
    hit hc   := costs_of_bill h hc
    recorded := ⟨id, now, model, provider, rfl⟩ }

namespace State

variable (s : State)

-- The `GET` of `_get_hold_amount`. Its failure is swallowed.
def get (t : TaskId) (w : Work) (ok : Bool) : State :=
  s.setTask t <| .working (.looked <| Credit.getHoldAmount (s.holds w.args.requestId) s.now ok) w

def release (t : TaskId) (w : Work) (heldAmount : ℚ) : State :=
  let account := Credit.releaseHold heldAmount (s.accounts.rows w.args.userId)
  s.lockAccount t w.args.userId account |>.setTask t <| .working (.adjusted account) w

def settle (t : TaskId) (w : Work) (heldAmount : Option ℚ) : State :=
  let settled := Credit.settleCredit w.args.userId w.bill.billedAmount (some w.record.id) heldAmount
    (s.accounts.rows w.args.userId)
  s.lockAccount t w.args.userId settled.1 |>.setTask t <|
    .working (.adjusted settled.1) { w with txs := settled.2.map CreditTransaction.store }

def delete (t : TaskId) (w : Work) (account : Option CreditAccount) (ok : Bool) : State :=
  s.deleteHold w.args.requestId ok |>.setTask t <| .working (.cleaned account) w

def alert (t : TaskId) (w : Work) (account : Option CreditAccount) (sent : Bool) : State :=
  s.lockAccount t w.args.userId (account.map <| checkLowBalance s.now sent) |>.setTask t <|
    .working .alerted w

def deduct (t : TaskId) (w : Work) (provider : Provider) (log : ProviderBalanceLog) : State :=
  s.lockProvider t w.args.providerId provider |>.setTask t <|
    .working .deducted { w with provider, logs := [log.store] }

def check (t : TaskId) (w : Work) : State :=
  let provider := (ProviderBalance.checkThresholds s.now w.provider).provider
  s.lockProvider t w.args.providerId provider |>.setTask t <| .working .checked { w with provider }

def bump (t : TaskId) (w : Work) (key : VirtualKey) : State :=
  s.lockKey t w.args.virtualKeyId (bumpCounters s.now w.bill.tokens.totalTokens key) |>.setTask t <|
    .working .bumped w

end State

-- The steps of the tasks between two points at which another task can get its turn. A step that
-- needs a row's lock waits until the row is free, and writes to the row as it was committed last.
inductive Step (s : State) : State → Type
  | tick (d : Time) : Step s { s with now := s.now + d }
  | start (t : TaskId) (args : Arguments) (task : s.tasks t = .fresh) :
    Step s (s.setTask t <| .started args s.now)
  -- The model or the provider does not exist.
  | missing (t : TaskId) (args : Arguments) (now : Time) (task : s.tasks t = .started args now) :
    Step s (s.setTask t .over)
  | select (t : TaskId) (args : Arguments) (now : Time) (model : Model) (row : ProviderRow)
    (task : s.tasks t = .started args now) (model_id : model.id = args.modelId)
    (free : s.providers.Free args.providerId)
    (found : s.providers.rows args.providerId = some row) :
    Step s (s.lockProvider t args.providerId row.toProvider |>.setTask t <|
      .selected args now model row.toProvider)
  -- The row refers to its key and to its user.
  | insert (t : TaskId) (args : Arguments) (now : Time) (model : Model) (provider : Provider)
    (b : Bill) (id : UUID) (task : s.tasks t = .selected args now model provider)
    (billed : bill intOf model args.markupRate args.litellmResponse = .ok b)
    (key : (s.keys.rows args.virtualKeyId).isSome) (user : args.userId ∈ users)
    (new : s.Unused id) :
    Step s (s.setTask t <| .inserted id now args model provider billed)
  | get (t : TaskId) (w : Work) (ok : Bool) (task : s.tasks t = .working .inserted w) :
    Step s (s.get t w ok)
  | skip (t : TaskId) (w : Work) (task : s.tasks t = .working (.looked none) w)
    (hit : w.bill.cacheHit) : Step s (s.setTask t <| .working (.cleaned none) w)
  | release (t : TaskId) (w : Work) (heldAmount : ℚ)
    (task : s.tasks t = .working (.looked <| some heldAmount) w) (hit : w.bill.cacheHit)
    (free : s.accounts.Free w.args.userId) : Step s (s.release t w heldAmount)
  | settle (t : TaskId) (w : Work) (heldAmount : Option ℚ)
    (task : s.tasks t = .working (.looked heldAmount) w) (miss : ¬w.bill.cacheHit)
    (free : s.accounts.Free w.args.userId) : Step s (s.settle t w heldAmount)
  | delete (t : TaskId) (w : Work) (account : Option CreditAccount) (ok : Bool)
    (task : s.tasks t = .working (.adjusted account) w) : Step s (s.delete t w account ok)
  | alert (t : TaskId) (w : Work) (account : Option CreditAccount) (sent : Bool)
    (task : s.tasks t = .working (.cleaned account) w) (miss : ¬w.bill.cacheHit) :
    Step s (s.alert t w account sent)
  | deduct (t : TaskId) (w : Work) (provider : Provider) (log : ProviderBalanceLog)
    (task : s.tasks t = .working .alerted w)
    (deducted : ProviderBalance.deductProviderBalance w.args.providerId w.bill.baseCost
      w.args.requestId (some w.record.id) none (some w.provider) = .ok (provider, log)) :
    Step s (s.deduct t w provider log)
  | check (t : TaskId) (w : Work) (task : s.tasks t = .working .deducted w) : Step s (s.check t w)
  | bump (t : TaskId) (phase : Phase) (w : Work) (key : VirtualKey)
    (task : s.tasks t = .working phase w) (last : phase.isLast w.bill.cacheHit)
    (free : s.keys.Free w.args.virtualKeyId)
    (found : s.keys.rows w.args.virtualKeyId = some key) : Step s (s.bump t w key)
  | commit (t : TaskId) (w : Work) (task : s.tasks t = .working .bumped w) :
    Step s (s.commit t [w.record] w.txs w.logs)
  | load (t : TaskId) (id : UUID) (change : KeyUpdate) (key : VirtualKey)
    (task : s.tasks t = .fresh) (found : s.keys.rows id = some key)
    (active : change = .revoke → key.isActive) : Step s (s.setTask t <| .loaded id change)
  | write (t : TaskId) (id : UUID) (change : KeyUpdate) (key : VirtualKey)
    (task : s.tasks t = .loaded id change) (free : s.keys.Free id)
    (found : s.keys.rows id = some key) :
    Step s (s.lockKey t id (change.apply s.now key) |>.setTask t .written)
  | commitKey (t : TaskId) (task : s.tasks t = .written) : Step s (s.commit t [] [] [])
  -- An exception is raised, and the transaction is rolled back.
  | fail (t : TaskId) (task : (s.tasks t).isOpen) : Step s (s.rollback t)

abbrev Run := Steps (Step intOf users)

namespace State

variable {s : State} {t : TaskId} {k : Task} {id : UUID} {usage : List UsageRecord}
  {txs : List CreditTransaction} {logs : List ProviderBalanceLog}

@[simp] theorem setTask_now : (s.setTask t k).now = s.now := rfl
@[simp] theorem setTask_providers : (s.setTask t k).providers = s.providers := rfl
@[simp] theorem setTask_accounts : (s.setTask t k).accounts = s.accounts := rfl
@[simp] theorem setTask_keys : (s.setTask t k).keys = s.keys := rfl
@[simp] theorem setTask_holds : (s.setTask t k).holds = s.holds := rfl
@[simp] theorem setTask_tasks : (s.setTask t k).tasks = update s.tasks t k := rfl
@[simp] theorem commit_usage : (s.commit t usage txs logs).usage = s.usage ++ usage := rfl

theorem Unused.setTask (h : s.Unused id) (hk : k.record.map UsageRecord.id ≠ some id) :
    (s.setTask t k).Unused id := by
  refine ⟨h.left, fun t' record hr hi => ?_⟩
  rw [setTask_tasks] at hr
  by_cases ht : t' = t
  case pos =>
    rw [ht, update_self] at hr
    exact hk (by rw [hr, Option.map_some, hi])
  case neg => exact h.right t' record (update_of_ne ht k s.tasks ▸ hr) hi

theorem Unused.lockProvider (h : s.Unused id) : (s.lockProvider t providerId provider).Unused id :=
  h

end State
end PostProcess
