import AstraGate.Models.VirtualKey

namespace VirtualKey

-- `KEY_PREFIX_FORMAT`
def keyPrefixFormat : String :=
  "ag-sk-"

-- `MAX_KEYS_PER_USER`
def maxKeysPerUser : Nat :=
  10

-- `REDIS_VK_PREFIX`
def redisVkPrefix : String :=
  "vk:"

def cacheKey (keyHash : String) : String :=
  redisVkPrefix ++ keyHash

def extractPrefix (plaintextKey : String) : String :=
  String.ofList (plaintextKey.toList.take 8)

-- `generate_virtual_key`, with its random part.
def generateVirtualKey (randomPart : String) : String :=
  keyPrefixFormat ++ randomPart

-- The arguments of `create_virtual_key`, and what it draws at random.
structure Creation where
  userId       : UUID
  name         : String
  description  : Option String
  rateLimitRpm : Option Nat
  id           : UUID
  randomPart   : String
deriving DecidableEq

-- The row that `create_virtual_key` inserts.
def create (hashKey : String → String) (c : Creation) : VirtualKey where
  id            := c.id
  userId        := c.userId
  name          := c.name
  description   := c.description
  keyHash       := hashKey (generateVirtualKey c.randomPart)
  keyPrefix     := extractPrefix (generateVirtualKey c.randomPart)
  isActive      := true
  rateLimitRpm  := c.rateLimitRpm
  lastUsedAt    := none
  totalRequests := 0
  totalTokens   := 0
  revokedAt     := none

inductive ValueError
  | maximumReached
deriving DecidableEq

-- `create_virtual_key`, which counts the active keys of the user.
def createVirtualKey (hashKey : String → String) (keys : List VirtualKey) (c : Creation) :
    Except ValueError VirtualKey :=
  let activeCount := keys.filter (fun key => key.userId = c.userId ∧ key.isActive) |>.length
  if maxKeysPerUser ≤ activeCount then .error .maximumReached else .ok (create hashKey c)

-- What `create_default_key` asks for.
def defaultCreation (userId id : UUID) (randomPart : String) : Creation where
  userId       := userId
  name         := "Default Key"
  description  := some "Auto-created default key"
  rateLimitRpm := none
  id           := id
  randomPart   := randomPart

-- What the flush of `revoke_virtual_key` makes of the row.
def revoke (now : Time) (key : VirtualKey) : VirtualKey :=
  { key with isActive := false, revokedAt := some now }

-- A user without keys gets one.
theorem createVirtualKey_of_forall_ne (hashKey : String → String) (c : Creation)
    (h : ∀ key ∈ keys, key.userId ≠ c.userId) :
    createVirtualKey hashKey keys c = .ok (create hashKey c) := by
  have hn : keys.filter (fun key => key.userId = c.userId ∧ key.isActive) = [] :=
    List.filter_eq_nil_iff.mpr fun key hk => by simp [h key hk]
  rw [createVirtualKey, hn]
  exact if_neg (by decide)

theorem eq_of_createVirtualKey (h : createVirtualKey hashKey keys c = .ok key) :
    key = create hashKey c := by
  unfold createVirtualKey at h
  dsimp only at h
  split at h
  case isTrue  => contradiction
  case isFalse => exact (Except.ok.inj h).symm

theorem cacheKey_inj : cacheKey h = cacheKey h' ↔ h = h' := by
  rw [cacheKey, cacheKey, ← String.toList_inj, String.toList_append, String.toList_append,
    List.append_cancel_left_eq, String.toList_inj]

end VirtualKey
