import AstraGate.Middleware.VirtualKeyAuth
import AstraGate.Services.Cache
import AstraGate.Services.VirtualKey

namespace VirtualKeyAuth

-- `REDIS_VK_TTL`
def redisVkTtl : Time :=
  30000

-- What `_set_key_in_cache` is given.
def CachedKey.payload (key : CachedKey) : Json := .dict [
  ("id", .str (Billing.uuidStr key.id)),
  ("user_id", .str (Billing.uuidStr key.userId)),
  ("is_active", .bool key.isActive),
  ("rate_limit_rpm", key.rateLimitRpm.elim .null (.int ·)),
  ("key_prefix", .str key.keyPrefix)]

-- `cached_data.get("is_active", False)`
def cachedIsActive (cachedData : Json) : Except Python.Error Bool :=
  (cachedData.get "is_active" (.bool false)).map Json.truthy

section

variable (floatRepr : String → String) (now : Time) (keyHash : String) (server : Redis.Server)

-- `_get_key_from_cache`, which takes an empty text for none.
def getKeyFromCache : Option Json :=
  match server.get now (VirtualKey.cacheKey keyHash) with
  | .ok cached => cached.filter (· ≠ "") |>.bind (Json.loads floatRepr)
  | .error _   => none

-- `_set_key_in_cache`
def setKeyInCache (key : CachedKey) : Redis.Server :=
  server.setex now (VirtualKey.cacheKey keyHash) redisVkTtl (Json.dumps key.payload)

-- How `revoke_virtual_key` drops a key.
def dropKey : Redis.Server :=
  server.del [VirtualKey.cacheKey keyHash]

end

theorem CachedKey.plain_payload (key : CachedKey) : key.payload.Plain := by
  cases hl : key.rateLimitRpm <;> simp [payload, hl, Json.Plain, Json.PlainFields]

theorem CachedKey.cachedIsActive_payload (key : CachedKey) :
    cachedIsActive key.payload = .ok key.isActive := by
  simp [cachedIsActive, payload, Json.get, Json.Fields.get, List.lookup_cons, Json.truthy,
    Except.map]

end VirtualKeyAuth
