import AstraGate.Execution.Store.State

open Function

namespace Store

open Cache (Id)
open Redis

-- The calls of the services that send a single command to Redis, and what other clients like
-- LiteLLM make of keys of their own.
inductive Command
  | getCachedStatus (providerId : Id)
  | cacheStatus (status : ProviderBalance.SpelledStatus)
  | invalidateProviderStatusCache (providerId : Id)
  | getKeyFromCache (keyHash : String)
  | setKeyInCache (keyHash : String) (key : VirtualKeyAuth.CachedKey)
  | dropKey (keyHash : String)
  | addIp (keyId : Id) (hourWindow : Nat) (clientIp : String)
  | expireIps (keyId : Id) (hourWindow : Nat)
  | countIps (keyId : Id) (hourWindow : Nat)
  | getCachedRate (modelId : Id)
  | cacheRate (modelId : Id) (rate : ℚ)
  | invalidateMarkupCache (modelId : Id)
  -- The whole loop over the replies of a scan, between the commands of others. The server also
  -- drops keys that have expired when the scan comes across them.
  | invalidateMarkups (replies : List Redis.Reply)
    (matching : ∀ key ∈ replies.flatMap Redis.Reply.gone, Markup.IsMarkupKey key)
  -- The keys of a reply of the scan, where others come between.
  | deleteMarkups (keys : List String) (matching : ∀ key ∈ keys, Markup.IsMarkupKey key)
  | getHold (requestId : String)
  | setHold (requestId : String) (userId : UUID) (amount : Decimal.Signed)
  | releaseRedisHold (requestId : String)
  | incrWindow (keyId : Id) (minuteWindow : Nat)
  | expireWindow (keyId : Id) (minuteWindow : Nat)
  | incrAttempts (userId : Id)
  | expireAttempts (userId : Id)
  | resetAttempts (userId : Id)
  | blacklist (jti : String) (ttl : Nat)
  | getCachedKeywords
  | cacheKeywords (keywords : List Guardrail.Keyword)
  | invalidateKeywordCache
  | other (key : String) (entry : Option (Entry Data)) (foreign : ∀ k : Key, k.render ≠ key)

-- What a service makes of the reply.
inductive Reply
  | done
  | status (status : Option ProviderBalance.ProviderStatus)
  | active (isActive : Option (Except Python.Error Bool))
  | rate (rate : Option ℚ)
  | hold (amount : Option ℚ)
  | keywords (keywords : Option (List Guardrail.Keyword))
  | count (count : Except Redis.Error Int)
  | members (count : Except Redis.Error Nat)

-- The seconds of `REDIS_MARKUP_TTL`.
def redisMarkupTtl : Time :=
  60000

-- `repr(float(text))` of numbers in JSON, and `str` and `float` of rates.
variable (floatRepr : String → String) (text : Markup.RateText)

namespace Command

-- The command as the server executes it.
def serve (now : Time) (server : Server) : Command → Reply × Server
  | getCachedStatus id =>
    (.status <| ProviderBalance.getCachedStatus floatRepr now server id.val, server)
  | cacheStatus status => (.done, ProviderBalance.cacheStatus now server status)
  | invalidateProviderStatusCache id =>
    (.done, ProviderBalance.invalidateProviderStatusCache server id.val)
  | getKeyFromCache keyHash =>
    (.active <| (VirtualKeyAuth.getKeyFromCache floatRepr now keyHash server).map
      VirtualKeyAuth.cachedIsActive, server)
  | setKeyInCache keyHash key => (.done, VirtualKeyAuth.setKeyInCache now keyHash server key)
  | dropKey keyHash => (.done, VirtualKeyAuth.dropKey keyHash server)
  | addIp id w clientIp =>
    (.done, (server.sadd now (IpTracking.trackingKey id.str w) clientIp).2)
  | expireIps id w =>
    (.done, server.expire now (IpTracking.trackingKey id.str w) IpTracking.ipTrackingTtl)
  | countIps id w => (.members <| server.scard now (IpTracking.trackingKey id.str w), server)
  | getCachedRate id =>
    (.rate <| (server.get now <| Markup.cacheKey Billing.uuidStr id.val).toOption.join.bind
      text.float, server)
  | cacheRate id rate =>
    (.done, server.setex now (Markup.cacheKey Billing.uuidStr id.val) redisMarkupTtl
      (text.str rate))
  | invalidateMarkupCache id => (.done, server.del [Markup.cacheKey Billing.uuidStr id.val])
  | invalidateMarkups replies _ => (.done, Redis.sweep replies server)
  | deleteMarkups keys _ => (.done, server.del keys)
  | getHold requestId => (.hold <| Credit.getHold now requestId server, server)
  | setHold requestId userId amount =>
    (.done, Credit.setHold now requestId server userId amount)
  | releaseRedisHold requestId => (.done, Credit.releaseRedisHold requestId server)
  | incrWindow id w =>
    let reply := server.incr now (RateLimit.buildKey id.str w)
    (.count reply.1, reply.2)
  | expireWindow id w =>
    (.done, server.expire now (RateLimit.buildKey id.str w) RateLimit.rateLimitTtl)
  | incrAttempts id =>
    let reply := server.incr now (Auth.loginAttemptsKey Billing.uuidStr id.val)
    (.count reply.1, reply.2)
  | expireAttempts id =>
    (.done, server.expire now (Auth.loginAttemptsKey Billing.uuidStr id.val) Auth.lockout)
  | resetAttempts id => (.done, server.del [Auth.loginAttemptsKey Billing.uuidStr id.val])
  | blacklist jti ttl => (.done, server.setex now (Auth.blacklistKey jti) ttl "1")
  | getCachedKeywords => (.keywords <| Guardrail.getCachedKeywords floatRepr now server, server)
  | cacheKeywords keywords => (.done, Guardrail.cacheKeywords now server keywords)
  | invalidateKeywordCache => (.done, Guardrail.invalidateKeywordCache server)
  | other key entry _ => (.done, update server key entry)

end Command

namespace State

variable (now : Time) (s : State)

-- The value of a key that has not expired.
def value (k : Key) : Option (Value k) :=
  (find now (s k)).map Entry.value

def set (k : Key) (ttl : Nat) (v : Value k) : State :=
  update s k (some { value := v, expires := some (now + ttl) })

def drop (k : Key) : State :=
  update s k none

def expire (k : Key) (ttl : Nat) : State :=
  update s k (Redis.expire now ttl (s k))

def dropMarkups (keys : List String) : State
  | .markup id => if (Key.markup id).render ∈ keys then none else s (.markup id)
  | k          => s k

-- The command as the services understand it.
def handle : Command → Reply × State
  | .getCachedStatus id => (.status <| s.value now (.providerStatus id), s)
  | .cacheStatus status =>
    (.done, s.set now (.providerStatus ⟨status.providerId, status.id_lt⟩)
      ProviderBalance.redisProviderStatusTtl status.toProviderStatus)
  | .invalidateProviderStatusCache id => (.done, s.drop (.providerStatus id))
  | .getKeyFromCache keyHash =>
    (.active <| (s.value now (.virtualKey keyHash)).map (.ok ·.isActive), s)
  | .setKeyInCache keyHash key =>
    (.done, s.set now (.virtualKey keyHash) VirtualKeyAuth.redisVkTtl key)
  | .dropKey keyHash => (.done, s.drop (.virtualKey keyHash))
  | .addIp id w clientIp =>
    (.done, update s (.ips id w) (some <| Redis.add now clientIp (s (.ips id w))))
  | .expireIps id w => (.done, s.expire now (.ips id w) IpTracking.ipTrackingTtl)
  | .countIps id w => (.members <| .ok <| Redis.card now (s (.ips id w)), s)
  | .getCachedRate id => (.rate <| s.value now (.markup id), s)
  | .cacheRate id rate => (.done, s.set now (.markup id) redisMarkupTtl rate)
  | .invalidateMarkupCache id => (.done, s.drop (.markup id))
  | .invalidateMarkups replies _ => (.done, s.dropMarkups <| replies.flatMap Redis.Reply.gone)
  | .deleteMarkups keys _ => (.done, s.dropMarkups keys)
  | .getHold requestId => (.hold <| s.value now (.hold requestId), s)
  | .setHold requestId _ amount =>
    (.done, s.set now (.hold requestId) Credit.redisHoldTtl amount.value)
  | .releaseRedisHold requestId => (.done, s.drop (.hold requestId))
  | .incrWindow id w =>
    let counter := Redis.incr now (s (.rateLimit id w))
    (.count <| .ok counter.value, update s (.rateLimit id w) (some counter))
  | .expireWindow id w => (.done, s.expire now (.rateLimit id w) RateLimit.rateLimitTtl)
  | .incrAttempts id =>
    let counter := Redis.incr now (s (.loginAttempts id))
    (.count <| .ok counter.value, update s (.loginAttempts id) (some counter))
  | .expireAttempts id => (.done, s.expire now (.loginAttempts id) Auth.lockout)
  | .resetAttempts id => (.done, s.drop (.loginAttempts id))
  | .blacklist jti ttl => (.done, s.set now (.refreshBlacklist jti) ttl ())
  | .getCachedKeywords => (.keywords <| s.value now .keywords, s)
  | .cacheKeywords keywords => (.done, s.set now .keywords Guardrail.redisGuardrailTtl keywords)
  | .invalidateKeywordCache => (.done, s.drop .keywords)
  | .other .. => (.done, s)

end State

-- The replies to commands of all services, in the order in which the server executes them.
def serveAll : List (Time × Command) → Server → List Reply × Server
  | [], server               => ([], server)
  | (now, c) :: cs, server =>
    let served := c.serve floatRepr text now server
    let rest := serveAll cs served.2
    (served.1 :: rest.1, rest.2)

def handleAll : List (Time × Command) → State → List Reply × State
  | [], s            => ([], s)
  | (now, c) :: cs, s =>
    let handled := s.handle now c
    let rest := handleAll cs handled.2
    (handled.1 :: rest.1, rest.2)

end Store
