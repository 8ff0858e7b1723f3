import AstraGate.Execution.Store.Step
import AstraGate.RedisClient

open Function

namespace Store

open Redis

variable (floatRepr : String → String) (text : Markup.RateText)

namespace Command

-- The methods that the command calls are there.
def Supported : Command → Prop
  | addIp .. | expireIps .. | countIps .. => False
  | other ..                              => False
  | _                                     => True

-- The key whose entry a service learns of by the reply.
def reads : Command → Option Key
  | getCachedStatus id      => some (.providerStatus id)
  | getKeyFromCache keyHash => some (.virtualKey keyHash)
  | getCachedRate id        => some (.markup id)
  | getHold requestId       => some (.hold requestId)
  | incrWindow id w         => some (.rateLimit id w)
  | incrAttempts id         => some (.loginAttempts id)
  | getCachedKeywords       => some .keywords
  | _                       => none

-- The command as the mock executes it, where it supports it.
def mock (now : Time) (store : MockRedis) : Command → Reply × MockRedis
  | getCachedStatus id =>
    (.status <| ProviderBalance.getCachedStatus floatRepr now store.server id.val, store)
  | cacheStatus status =>
    (.done, store.setex (ProviderBalance.statusCacheKey status.providerId)
      ProviderBalance.redisProviderStatusTtl (Json.dumps status.payload))
  | invalidateProviderStatusCache id =>
    (.done, (store.delete [ProviderBalance.statusCacheKey id.val]).2)
  | getKeyFromCache keyHash =>
    (.active <| (VirtualKeyAuth.getKeyFromCache floatRepr now keyHash store.server).map
      VirtualKeyAuth.cachedIsActive, store)
  | setKeyInCache keyHash key =>
    (.done, store.setex (VirtualKey.cacheKey keyHash) VirtualKeyAuth.redisVkTtl
      (Json.dumps key.payload))
  | dropKey keyHash => (.done, (store.delete [VirtualKey.cacheKey keyHash]).2)
  | getCachedRate id =>
    (.rate <| (store.get <| Markup.cacheKey Billing.uuidStr id.val).bind text.float, store)
  | cacheRate id rate =>
    (.done, store.setex (Markup.cacheKey Billing.uuidStr id.val) redisMarkupTtl (text.str rate))
  | invalidateMarkupCache id =>
    (.done, (store.delete [Markup.cacheKey Billing.uuidStr id.val]).2)
  -- The first reply of the mock is its last one.
  | invalidateMarkups .. =>
    let (_, keys) := store.scan (some <| Markup.redisMarkupPrefix ++ "*")
    (.done, (store.delete keys).2)
  | deleteMarkups keys _ => (.done, (store.delete keys).2)
  | getHold requestId => (.hold <| Credit.getHold now requestId store.server, store)
  | setHold requestId userId amount =>
    (.done, store.setex (Credit.holdCacheKey requestId) Credit.redisHoldTtl
      (Credit.holdData userId amount))
  | releaseRedisHold requestId => (.done, (store.delete [Credit.holdCacheKey requestId]).2)
  | incrWindow id w =>
    let reply := store.incr (RateLimit.buildKey id.str w)
    (.count <| reply.1.mapError fun _ => .notAnInteger, reply.2)
  | incrAttempts id =>
    let reply := store.incr (Auth.loginAttemptsKey Billing.uuidStr id.val)
    (.count <| reply.1.mapError fun _ => .notAnInteger, reply.2)
  | resetAttempts id =>
    (.done, (store.delete [Auth.loginAttemptsKey Billing.uuidStr id.val]).2)
  | blacklist jti ttl => (.done, store.setex (Auth.blacklistKey jti) ttl "1")
  | getCachedKeywords =>
    (.keywords <| Guardrail.getCachedKeywords floatRepr now store.server, store)
  | cacheKeywords keywords =>
    (.done, store.setex Guardrail.redisGuardrailKey Guardrail.redisGuardrailTtl
      (Json.dumps <| .list <| keywords.map Guardrail.Keyword.payload))
  | invalidateKeywordCache => (.done, (store.delete [Guardrail.redisGuardrailKey]).2)
  | expireWindow .. | expireAttempts .. | addIp .. | expireIps .. | countIps .. | other .. =>
    (.done, store)

end Command

def mockAll : List (Time × Command) → MockRedis → List Reply × MockRedis
  | [], store             => ([], store)
  | (now, c) :: cs, store =>
    let mocked := c.mock floatRepr text now store
    let rest := mockAll cs mocked.2
    (mocked.1 :: rest.1, rest.2)

-- No service asks for what has expired. A request is counted when its minute has begun, and no more
-- than a minute after its end.
def State.Punctual (now : Time) (s : State) : Command → Prop
  | .incrWindow _ w   => now < 60000 * (w + 2)
  | .expireWindow _ w => 60000 * w ≤ now
  | c                 => ∀ k ∈ c.reads, ∀ e ∈ s k, e.Live now

def Timely : List (Time × Command) → State → Prop
  | [], _             => True
  | (now, c) :: cs, s => s.Punctual now c ∧ Timely cs (s.handle now c).2

-- The server replies to a scan with every key that is there throughout.
def Command.Scans (server : Server) : Command → Prop
  | invalidateMarkups replies _ => Redis.Scan Markup.IsMarkupKey server replies
  | _                           => True

def Scanned : List (Time × Command) → Server → Prop
  | [], _                  => True
  | (now, c) :: cs, server => c.Scans server ∧ Scanned cs (c.serve floatRepr text now server).2

end Store
