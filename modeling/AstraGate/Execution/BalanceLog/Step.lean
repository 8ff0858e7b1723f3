import AstraGate.Api.Admin
import AstraGate.Lib.Journal
import AstraGate.Lib.Steps
import AstraGate.Lib.Table
import AstraGate.Services.PostProcess

open Function

-- Post-processing and `update_balance` requests, which both change the balance of a provider and
-- log the change. All arithmetic on the balances is exact: a column keeps what is flushed to it.
namespace BalanceLog

open Admin PostProcess ProviderBalance

abbrev TaskId := Nat

inductive Task
  | fresh
  -- Post-processing: `p` is the provider as the session holds it, and `log` is the row that it has
  -- inserted. A task is `ready` when only its commit is left.
  | selected (id : UUID) (p : Provider)
  | deducted (id : UUID) (p : Provider) (log : ProviderBalanceLog)
  | ready (id : UUID) (log : Option ProviderBalanceLog)
  -- `update_balance`: the session has loaded `loaded`, without a lock. If it finds the balance that
  -- it is to set, only the row of the log is flushed.
  | read (id : UUID) (body : ProviderBalanceRequest) (loaded : Provider)
  | flushed (id : UUID) (loaded : Provider) (log : ProviderBalanceLog)
  | kept (id : UUID) (loaded : Provider) (log : ProviderBalanceLog)
  | over

structure State where
  providers : Table UUID TaskId (Option Provider)
  logs      : List ProviderBalanceLog
  tasks     : TaskId → Task

namespace State

variable (s : State)

-- The rows of `provider_balance_log` for a provider, in the order of their commits.
def logsOf (id : UUID) : List ProviderBalanceLog :=
  s.logs.filter (·.providerId = id)

def setTask (t : TaskId) (task : Task) : State :=
  { s with tasks := update s.tasks t task }

-- Locks the row of a provider or, if it is locked already, flushes a new version of it.
def lock (t : TaskId) (id : UUID) (p : Provider) (task : Task) : State :=
  { s with providers := s.providers.lock id t (some p) }.setTask t task

def commit (t : TaskId) (id : UUID) (row : Option Provider) (log : Option ProviderBalanceLog) :
    State :=
  { s with
    providers := s.providers.commit id row
    logs      := s.logs ++ log.toList }.setTask t .over

-- The commit of a transaction that has locked no row.
def append (t : TaskId) (log : ProviderBalanceLog) : State :=
  { s with logs := s.logs ++ [log] }.setTask t .over

def rollback (t : TaskId) (id : UUID) : State :=
  { s with providers := s.providers.rollback id }.setTask t .over

end State

variable (str : ℚ → String)

-- A step that needs a row's lock waits until the row is free.
inductive Step (s : State) : State → Type
  -- `_post_process_in_session`: a response from the cache skips the deduction and the check.
  | select (t : TaskId) (id : UUID) (p : Provider) (task : s.tasks t = .fresh)
    (free : s.providers.Free id) (found : s.providers.rows id = some p) :
    Step s (s.lock t id p <| .selected id p)
  | skip (t : TaskId) (id : UUID) (p : Provider) (task : s.tasks t = .selected id p) :
    Step s (s.setTask t <| .ready id none)
  | deduct (t : TaskId) (id : UUID) (c : Charge) (p p' : Provider) (log : ProviderBalanceLog)
    (row : Option Provider) (task : s.tasks t = .selected id p)
    (locked : s.providers.pending id = some (t, row))
    (ok : deductProviderBalance id c.baseCost c.requestId c.usageRecordId none (some p) =
      .ok (p', log)) :
    Step s (s.lock t id p' <| .deducted id p' log)
  | check (t : TaskId) (id : UUID) (now : Time) (p : Provider) (log : ProviderBalanceLog)
    (row : Option Provider) (task : s.tasks t = .deducted id p log)
    (locked : s.providers.pending id = some (t, row)) :
    Step s (s.lock t id (checkThresholds now p).provider <| .ready id log)
  | commit (t : TaskId) (id : UUID) (row : Option Provider) (log : Option ProviderBalanceLog)
    (task : s.tasks t = .ready id log) (locked : s.providers.pending id = some (t, row)) :
    Step s (s.commit t id row log)
  -- `update_balance`, which takes the lock with the flush.
  | read (t : TaskId) (id : UUID) (body : ProviderBalanceRequest) (p : Provider)
    (task : s.tasks t = .fresh) (found : s.providers.rows id = some p) :
    Step s (s.setTask t <| .read id body p)
  | flush (t : TaskId) (id : UUID) (body : ProviderBalanceRequest) (loaded new p : Provider)
    (log : ProviderBalanceLog) (task : s.tasks t = .read id body loaded)
    (ok : updateBalance str id body (some loaded) = .ok (new, log))
    (changed : new.balanceUsd ≠ loaded.balanceUsd) (free : s.providers.Free id)
    (found : s.providers.rows id = some p) :
    Step s (s.lock t id { p with balanceUsd := new.balanceUsd } <| .flushed id loaded log)
  | keep (t : TaskId) (id : UUID) (body : ProviderBalanceRequest) (loaded new : Provider)
    (log : ProviderBalanceLog) (task : s.tasks t = .read id body loaded)
    (ok : updateBalance str id body (some loaded) = .ok (new, log))
    (unchanged : new.balanceUsd = loaded.balanceUsd) :
    Step s (s.setTask t <| .kept id loaded log)
  | commitUpdate (t : TaskId) (id : UUID) (loaded : Provider) (row : Option Provider)
    (log : ProviderBalanceLog) (task : s.tasks t = .flushed id loaded log)
    (locked : s.providers.pending id = some (t, row)) : Step s (s.commit t id row log)
  | commitKept (t : TaskId) (id : UUID) (loaded : Provider) (log : ProviderBalanceLog)
    (task : s.tasks t = .kept id loaded log) : Step s (s.append t log)
  -- An exception, also in a transaction that has locked no row.
  | abort (t : TaskId) (id : UUID) (row : Option Provider)
    (locked : s.providers.pending id = some (t, row)) : Step s (s.rollback t id)
  | abortUnlocked (t : TaskId) (unlocked : ∀ id row, s.providers.pending id ≠ some (t, row)) :
    Step s (s.setTask t .over)

abbrev Run := Steps (Step str)

namespace State

variable {s : State} {t : TaskId} {id : UUID}

@[simp]
theorem setTask_providers : (s.setTask t task).providers = s.providers :=
  rfl

@[simp]
theorem setTask_logsOf : (s.setTask t task).logsOf id = s.logsOf id :=
  rfl

@[simp]
theorem setTask_tasks : (s.setTask t task).tasks = update s.tasks t task :=
  rfl

@[simp]
theorem lock_providers : (s.lock t id p task).providers = s.providers.lock id t (some p) :=
  rfl

@[simp]
theorem lock_logsOf : (s.lock t id p task).logsOf i = s.logsOf i :=
  rfl

@[simp]
theorem lock_tasks : (s.lock t id p task).tasks = update s.tasks t task :=
  rfl

@[simp]
theorem commit_providers : (s.commit t id row log).providers = s.providers.commit id row :=
  rfl

theorem commit_logsOf :
    (s.commit t id row log).logsOf i =
      s.logsOf i ++ log.toList.filter (fun log => log.providerId = i) :=
  List.filter_append ..

@[simp]
theorem commit_tasks : (s.commit t id row log).tasks = update s.tasks t .over :=
  rfl

@[simp]
theorem append_providers : (s.append t log).providers = s.providers :=
  rfl

theorem append_logsOf :
    (s.append t log).logsOf i = s.logsOf i ++ [log].filter (fun log => log.providerId = i) :=
  List.filter_append ..

@[simp]
theorem append_tasks : (s.append t log).tasks = update s.tasks t .over :=
  rfl

@[simp]
theorem rollback_providers : (s.rollback t id).providers = s.providers.rollback id :=
  rfl

@[simp]
theorem rollback_logsOf : (s.rollback t id).logsOf i = s.logsOf i :=
  rfl

@[simp]
theorem rollback_tasks : (s.rollback t id).tasks = update s.tasks t .over :=
  rfl

end State
end BalanceLog
