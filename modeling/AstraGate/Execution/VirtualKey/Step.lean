import AstraGate.Execution.VirtualKey.State
import AstraGate.Lib.Steps

open Function

namespace VirtualKeyAuth

-- `hash_key`
variable (hashKey : String → String)

namespace State

variable (s : State)

-- The cached path of `require_virtual_key`, up to its query.
def hit (t : TaskId) (authorization : Option String) (keyHash : String) (entry : CachedKey) :
    State :=
  s.setTask t <|
    if entry.isActive then .cached authorization keyHash
    else .decided authorization (.error revokedKey)

-- The query of the cached path.
def recheck (t : TaskId) (authorization : Option String) (keyHash : String) : State :=
  s.setTask t <| .decided authorization (checkRow <| s.keys.rows keyHash)

-- The query of the fallback to the database.
def lookup (t : TaskId) (authorization : Option String) (keyHash : String) : State :=
  s.setTask t <|
    match s.keys.rows keyHash with
    | none     => .decided authorization (.error invalidKey)
    | some key => .caching authorization keyHash key

-- `_set_key_in_cache`, which may fail, and the rest of the call.
def store (t : TaskId) (authorization : Option String) (keyHash : String) (key : VirtualKey) :
    State :=
  s.setCache keyHash (some <| keyCacheData key) |>.setTask t <|
    .decided authorization (checkActive key)

def failStore (t : TaskId) (authorization : Option String) (key : VirtualKey) : State :=
  s.setTask t <| .decided authorization (checkActive key)

-- The flush of `create_virtual_key`.
def insert (t : TaskId) (c : VirtualKey.Creation) : State :=
  let key := VirtualKey.create hashKey c
  s.setKeys (s.keys.lock key.keyHash t (some key)) |>.setTask t .inserted

-- The flush of `revoke_virtual_key`, which writes to the row as it has been committed last.
def flush (t : TaskId) (key row : VirtualKey) (now : Time) : State :=
  s.setKeys (s.keys.lock key.keyHash t (some <| row.revoke now)) |>.setTask t <| .flushed key

def invalidate (t : TaskId) (key : VirtualKey) : State :=
  s.setCache key.keyHash none |>.setTask t .invalidated

def commit (t : TaskId) (keyHash : String) (row : Option VirtualKey) : State :=
  s.setKeys (s.keys.commit keyHash row) |>.setTask t .over

def rollback (t : TaskId) (keyHash : String) : State :=
  s.setKeys (s.keys.rollback keyHash) |>.setTask t .over

end State

-- The steps of the tasks between two points at which another task can get its turn.
inductive Step (s : State) : State → Type
  | reject (t : TaskId) (authorization : Option String) (e : HTTPException)
    (task : s.tasks t = .fresh) (header : bearerToken authorization = .error e) :
    Step s (s.setTask t <| .decided authorization (.error e))
  | hit (t : TaskId) (authorization : Option String) (token : String) (entry : CachedKey)
    (task : s.tasks t = .fresh) (header : bearerToken authorization = .ok token)
    (cached : s.cache (VirtualKey.cacheKey <| hashKey token) = some entry) :
    Step s (s.hit t authorization (hashKey token) entry)
  -- The key is not in the cache, or Redis fails.
  | miss (t : TaskId) (authorization : Option String) (token : String)
    (task : s.tasks t = .fresh) (header : bearerToken authorization = .ok token) :
    Step s (s.setTask t <| .uncached authorization (hashKey token))
  | recheck (t : TaskId) (authorization : Option String) (keyHash : String)
    (task : s.tasks t = .cached authorization keyHash) : Step s (s.recheck t authorization keyHash)
  | lookup (t : TaskId) (authorization : Option String) (keyHash : String)
    (task : s.tasks t = .uncached authorization keyHash) : Step s (s.lookup t authorization keyHash)
  | store (t : TaskId) (authorization : Option String) (keyHash : String) (key : VirtualKey)
    (task : s.tasks t = .caching authorization keyHash key) :
    Step s (s.store t authorization keyHash key)
  | failStore (t : TaskId) (authorization : Option String) (keyHash : String) (key : VirtualKey)
    (task : s.tasks t = .caching authorization keyHash key) :
    Step s (s.failStore t authorization key)
  -- An entry reaches the end of its time to live, or is evicted.
  | expire (keyHash : String) : Step s (s.setCache keyHash none)
  | count (t : TaskId) (c : VirtualKey.Creation) (task : s.tasks t = .fresh)
    (few : (s.activeKeys c.userId).encard < VirtualKey.maxKeysPerUser) :
    Step s (s.setTask t <| .counted c)
  | insert (t : TaskId) (c : VirtualKey.Creation) (task : s.tasks t = .counted c)
    (free : s.keys.Free (VirtualKey.create hashKey c).keyHash)
    (unique : s.keys.rows (VirtualKey.create hashKey c).keyHash = none) :
    Step s (s.insert hashKey t c)
  | load (t : TaskId) (key : VirtualKey) (task : s.tasks t = .fresh)
    (row : s.keys.rows key.keyHash = some key) (active : key.isActive) :
    Step s (s.setTask t <| .loaded key)
  | flush (t : TaskId) (key row : VirtualKey) (now : Time) (task : s.tasks t = .loaded key)
    (free : s.keys.Free key.keyHash) (committed : s.keys.rows key.keyHash = some row) :
    Step s (s.flush t key row now)
  | invalidate (t : TaskId) (key : VirtualKey) (task : s.tasks t = .flushed key) :
    Step s (s.invalidate t key)
  | failInvalidate (t : TaskId) (key : VirtualKey) (task : s.tasks t = .flushed key) :
    Step s (s.setTask t .invalidated)
  | commit (t : TaskId) (keyHash : String) (row : Option VirtualKey)
    (task : (s.tasks t).isComplete) (pending : s.keys.pending keyHash = some (t, row)) :
    Step s (s.commit t keyHash row)
  -- The request fails after its flush, or at its commit.
  | rollback (t : TaskId) (keyHash : String) (row : Option VirtualKey)
    (task : (s.tasks t).isOpen) (pending : s.keys.pending keyHash = some (t, row)) :
    Step s (s.rollback t keyHash)
  -- `_update_last_used_at` and the post-processing of requests write to other columns.
  | use (keyHash : String) (row : VirtualKey) (lastUsedAt : Option Time) (totalRequests : Nat)
    (totalTokens : Int) (free : s.keys.Free keyHash) (committed : s.keys.rows keyHash = some row) :
    Step s (s.setKeys <| s.keys.commit keyHash <| some
      { row with lastUsedAt, totalRequests, totalTokens })

abbrev Run := Steps (Step hashKey)

end VirtualKeyAuth
