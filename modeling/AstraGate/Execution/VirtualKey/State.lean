import AstraGate.Lib.Table
import AstraGate.Middleware.VirtualKeyAuth
import AstraGate.Services.VirtualKey
import Mathlib.Data.Set.Card

open Function

namespace VirtualKeyAuth

-- Ids of the calls of `require_virtual_key`, and of the requests that create or revoke a key.
abbrev TaskId := Nat

-- How far a task has come.
inductive Task
  | fresh
  -- `require_virtual_key`, with its header: the cache knows nothing, or an active key.
  | uncached (authorization : Option String) (keyHash : String)
  | cached (authorization : Option String) (keyHash : String)
  -- The row has been read, and is to be cached.
  | caching (authorization : Option String) (keyHash : String) (key : VirtualKey)
  | decided (authorization : Option String) (result : Except HTTPException VirtualKey)
  -- `create_virtual_key`
  | counted (creation : VirtualKey.Creation)
  | inserted
  -- `revoke_virtual_key`: the key has been loaded, flushed, and removed from the cache.
  | loaded (key : VirtualKey)
  | flushed (key : VirtualKey)
  | invalidated
  | over

namespace Task

-- The header of a call whose outcome no other step can change any more, and this outcome.
def verdict : Task → Option (Option String × Except HTTPException VirtualKey)
  | caching authorization _ key  => some (authorization, checkActive key)
  | decided authorization result => some (authorization, result)
  | _                            => none

-- A call of `require_virtual_key` that has begun.
def isCall : Task → Bool
  | uncached .. | cached .. | caching .. | decided .. => true
  | _                                                 => false

-- The task has flushed to the database, and its request can fail.
def isOpen : Task → Bool
  | inserted | flushed _ | invalidated => true
  | _                                  => false

-- The transaction of the task waits for nothing but its commit.
def isComplete : Task → Bool
  | inserted | invalidated => true
  | _                      => false

end Task

-- The table `virtual_keys` by its unique column `key_hash`, and the entries of the cache.
structure State where
  keys  : Table String TaskId (Option VirtualKey)
  cache : String → Option CachedKey
  tasks : TaskId → Task

namespace State

def setTask (s : State) (t : TaskId) (k : Task) : State :=
  { s with tasks := update s.tasks t k }

def setCache (s : State) (keyHash : String) (entry : Option CachedKey) : State :=
  { s with cache := update s.cache (VirtualKey.cacheKey keyHash) entry }

def setKeys (s : State) (keys : Table String TaskId (Option VirtualKey)) : State :=
  { s with keys }

-- What `create_virtual_key` counts.
def activeKeys (s : State) (userId : UUID) : Set String :=
  { keyHash | ∃ key, s.keys.rows keyHash = some key ∧ key.userId = userId ∧ key.isActive }

structure Initial (s : State) : Prop where
  quiet : s.keys.Quiet
  empty : ∀ key, s.cache key = none
  fresh : ∀ t, s.tasks t = .fresh

variable {s : State} {t : TaskId} {k : Task} {keyHash : String} {entry : Option CachedKey}
  {keys : Table String TaskId (Option VirtualKey)}

@[simp] theorem setTask_keys : (s.setTask t k).keys = s.keys := rfl
@[simp] theorem setTask_cache : (s.setTask t k).cache = s.cache := rfl
@[simp] theorem setTask_tasks : (s.setTask t k).tasks = update s.tasks t k := rfl
@[simp] theorem setCache_cache :
    (s.setCache keyHash entry).cache = update s.cache (VirtualKey.cacheKey keyHash) entry := rfl
@[simp] theorem setKeys_keys : (s.setKeys keys).keys = keys := rfl

end State
end VirtualKeyAuth
