import AstraGate.Execution.Provider.State
import AstraGate.Lib.Steps

open Function

namespace Providers

open ProviderBalance

-- The steps of the handlers between two points at which another task can get its turn. A step that
-- needs a row's lock waits until the row is free.
inductive Step (s : State) : State → Type
  -- `_post_process_in_session`: a response from the cache skips the deduction and the check.
  | select (t : TaskId) (id : UUID) (row : ProviderRow) (task : s.tasks t = .fresh)
    (free : s.providers.Free id) (found : s.providers.rows id = some row) :
    Step s (s.lock t id row <| .selected id row.toProvider)
  | skip (t : TaskId) (id : UUID) (p : Provider) (task : s.tasks t = .selected id p) :
    Step s (s.setTask t <| .ready id p)
  | deduct (t : TaskId) (id : UUID) (c : PostProcess.Charge) (p p' : Provider)
    (log : ProviderBalanceLog) (row : Option ProviderRow) (task : s.tasks t = .selected id p)
    (locked : s.providers.pending id = some (t, row))
    (ok : deductProviderBalance id c.baseCost c.requestId c.usageRecordId none (some p) =
      .ok (p', log)) :
    Step s (s.lock t id p'.store <| .deducted id p')
  | drop (t : TaskId) (id : UUID) (p : Provider) (task : s.tasks t = .deducted id p) :
    Step s (s.drop t id <| .dropped id p)
  | check (t : TaskId) (id : UUID) (now : Time) (p : Provider) (row : Option ProviderRow)
    (task : s.tasks t = .dropped id p) (locked : s.providers.pending id = some (t, row)) :
    Step s (s.lock t id (checkThresholds now p).provider.store <|
      if (checkThresholds now p).cacheDirty then .checked id (checkThresholds now p).provider
      else .ready id (checkThresholds now p).provider)
  | dropAgain (t : TaskId) (id : UUID) (p : Provider) (task : s.tasks t = .checked id p) :
    Step s (s.drop t id <| .ready id p)
  | commit (t : TaskId) (id : UUID) (p : Provider) (row : Option ProviderRow)
    (task : s.tasks t = .ready id p) (locked : s.providers.pending id = some (t, row)) :
    Step s (s.commit t id row)
  -- The admin requests, which take the lock with the flush of what they have changed.
  | read (t : TaskId) (id : UUID) (request : Admin.Request) (row : ProviderRow)
    (task : s.tasks t = .fresh) (found : s.providers.rows id = some row) :
    Step s (s.setTask t <| .read id request row.toProvider)
  | refuse (t : TaskId) (id : UUID) (request : Admin.Request) (loaded : Provider)
    (error : Admin.CannotReleaseHardStop) (task : s.tasks t = .read id request loaded)
    (refused : request.apply loaded = .error error) : Step s (s.setTask t .finished)
  | flush (t : TaskId) (id : UUID) (request : Admin.Request) (loaded new : Provider)
    (row : ProviderRow) (task : s.tasks t = .read id request loaded)
    (ok : request.apply loaded = .ok new) (changed : new ≠ loaded)
    (free : s.providers.Free id) (found : s.providers.rows id = some row) :
    Step s (s.lock t id (Admin.flush loaded new row) <| .flushed id request loaded new)
  | keep (t : TaskId) (id : UUID) (request : Admin.Request) (loaded : Provider)
    (task : s.tasks t = .read id request loaded) (ok : request.apply loaded = .ok loaded) :
    Step s (s.setTask t <| .flushed id request loaded loaded)
  | clear (t : TaskId) (id : UUID) (request : Admin.Request) (loaded new : Provider)
    (task : s.tasks t = .flushed id request loaded new) :
    Step s (s.drop t id <| .cleared id request loaded new)
  | commitAdmin (t : TaskId) (id : UUID) (request : Admin.Request) (loaded new : Provider)
    (row : Option ProviderRow) (task : s.tasks t = .cleared id request loaded new)
    (locked : s.providers.pending id = some (t, row)) : Step s (s.commit t id row)
  | finish (t : TaskId) (id : UUID) (request : Admin.Request) (loaded : Provider)
    (task : s.tasks t = .cleared id request loaded loaded) : Step s (s.setTask t .finished)
  | abort (t : TaskId) (id : UUID) (row : Option ProviderRow)
    (locked : s.providers.pending id = some (t, row)) : Step s (s.rollback t id)
  -- `resolve_provider_for_request`, and `check_provider_status` in its loop.
  | resolve (t : TaskId) (id : UUID) (maxFallbackDepth : Nat) (task : s.tasks t = .fresh) :
    Step s (s.setTask t <| .ofWalk <| (Walk.start id).enter (maxFallbackDepth + 1))
  | hit (t : TaskId) (w : Walk) (fuel : Nat) (status : ProviderStatus)
    (task : s.tasks t = .checking w fuel) (found : s.cache w.currentId = some status) :
    Step s (s.setTask t <| .ofWalk <| w.route fuel status)
  | miss (t : TaskId) (w : Walk) (fuel : Nat) (task : s.tasks t = .checking w fuel)
    (missed : s.cache w.currentId = none) : Step s (s.setTask t <| .loading w fuel)
  | load (t : TaskId) (w : Walk) (fuel : Nat) (row : ProviderRow)
    (task : s.tasks t = .loading w fuel) (found : s.providers.rows w.currentId = some row) :
    Step s (s.setTask t <| .caching w fuel <| providerToStatus w.currentId row.toProvider)
  | loadNone (t : TaskId) (w : Walk) (fuel : Nat) (task : s.tasks t = .loading w fuel)
    (missing : s.providers.rows w.currentId = none) :
    Step s (s.setTask t <| .ofWalk <| w.route fuel none)
  | fill (t : TaskId) (w : Walk) (fuel : Nat) (status : ProviderStatus)
    (task : s.tasks t = .caching w fuel status) :
    Step s (s.fill t w.currentId status <| .ofWalk <| w.route fuel status)
  | expire (id : UUID) : Step s { s with cache := update s.cache id none }

abbrev Run := Steps Step

namespace State

variable {s : State} {id : UUID}

@[simp]
theorem setTask_providers : (s.setTask t task).providers = s.providers :=
  rfl

@[simp]
theorem setTask_cache : (s.setTask t task).cache = s.cache :=
  rfl

@[simp]
theorem setTask_tasks : (s.setTask t task).tasks = update s.tasks t task :=
  rfl

@[simp]
theorem lock_providers : (s.lock t id row task).providers = s.providers.lock id t row :=
  rfl

@[simp]
theorem lock_tasks : (s.lock t id row task).tasks = update s.tasks t task :=
  rfl

@[simp]
theorem commit_providers : (s.commit t id row).providers = s.providers.commit id row :=
  rfl

@[simp]
theorem commit_tasks : (s.commit t id row).tasks = update s.tasks t .finished :=
  rfl

@[simp]
theorem rollback_providers : (s.rollback t id).providers = s.providers.rollback id :=
  rfl

@[simp]
theorem rollback_tasks : (s.rollback t id).tasks = update s.tasks t .aborted :=
  rfl

@[simp]
theorem drop_tasks : (s.drop t id task).tasks = update s.tasks t task :=
  rfl

@[simp]
theorem fill_tasks : (s.fill t id status task).tasks = update s.tasks t task :=
  rfl

end State
end Providers
