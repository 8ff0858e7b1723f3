import AstraGate.Api.Admin
import AstraGate.Lib.Table
import AstraGate.Services.PostProcess

open Function

namespace Providers

open ProviderBalance

-- Ids of the background tasks, admin requests and gateway requests that are run.
abbrev TaskId := Nat

-- How far a task has come, with the variables of its handler.
inductive Task
  | fresh
  -- Post-processing: `p` is the provider as the session holds it. A task is `checked` while the
  -- second drop of the cache is due, and `ready` when only its commit is left.
  | selected (id : UUID) (p : Provider)
  | deducted (id : UUID) (p : Provider)
  | dropped (id : UUID) (p : Provider)
  | checked (id : UUID) (p : Provider)
  | ready (id : UUID) (p : Provider)
  -- Admin requests: the session has loaded `loaded`, and turned it into `new`.
  | read (id : UUID) (request : Admin.Request) (loaded : Provider)
  | flushed (id : UUID) (request : Admin.Request) (loaded new : Provider)
  | cleared (id : UUID) (request : Admin.Request) (loaded new : Provider)
  -- Routing: `w` is at the `GET`, at the query after a miss, or at the `SET` of what it has found.
  | checking (w : Walk) (fuel : Nat)
  | loading (w : Walk) (fuel : Nat)
  | caching (w : Walk) (fuel : Nat) (status : ProviderStatus)
  | routed (d : ProviderRoutingDecision)
  | finished
  | aborted

def Task.ofWalk : ProviderRoutingDecision ⊕ Walk × Nat → Task
  | .inl d         => routed d
  | .inr (w, fuel) => checking w fuel

structure State where
  providers : Table UUID TaskId (Option ProviderRow)
  cache     : UUID → Option ProviderStatus
  tasks     : TaskId → Task

namespace State

variable (s : State)

def setTask (t : TaskId) (task : Task) : State :=
  { s with tasks := update s.tasks t task }

-- Locks the row of a provider or, if it is locked already, flushes a new version of it.
def lock (t : TaskId) (id : UUID) (row : Option ProviderRow) (task : Task) : State :=
  { s with providers := s.providers.lock id t row }.setTask t task

def commit (t : TaskId) (id : UUID) (row : Option ProviderRow) : State :=
  { s with providers := s.providers.commit id row }.setTask t .finished

def rollback (t : TaskId) (id : UUID) : State :=
  { s with providers := s.providers.rollback id }.setTask t .aborted

-- `invalidate_provider_status_cache`
def drop (t : TaskId) (id : UUID) (task : Task) : State :=
  { s with cache := update s.cache id none }.setTask t task

-- The `SET` of `_cache_status`.
def fill (t : TaskId) (id : UUID) (status : ProviderStatus) (task : Task) : State :=
  { s with cache := update s.cache id status }.setTask t task

structure Initial : Prop where
  fresh : ∀ t, s.tasks t = .fresh
  quiet : s.providers.Quiet

end State
end Providers
