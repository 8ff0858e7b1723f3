import AstraGate.Lib.Decimal.Spelling
import AstraGate.Services.Cache
import AstraGate.Services.ProviderBalance

namespace Provider.Status

-- The values of the column `status`.
def text : Provider.Status → String
  | normal   => "normal"
  | warning  => "warning"
  | hardStop => "hard_stop"

def ofText? (text : String) : Option Provider.Status :=
  [("normal", normal), ("warning", warning), ("hard_stop", hardStop)].lookup text

theorem ofText?_text (status : Provider.Status) : ofText? status.text = some status := by
  cases status <;> decide

end Provider.Status

namespace ProviderBalance

-- `REDIS_PROVIDER_STATUS_PREFIX`
def redisProviderStatusPrefix : String :=
  "provider_status:"

-- `REDIS_PROVIDER_STATUS_TTL`
def redisProviderStatusTtl : Time :=
  30000

-- `_status_cache_key`
def statusCacheKey (providerId : UUID) : String :=
  redisProviderStatusPrefix ++ Billing.uuidStr providerId

-- A status whose decimals come with their digits, as the database returns them.
structure SpelledStatus extends ProviderStatus where
  balance        : Decimal.Signed
  warning        : Decimal.Signed
  hardStop       : Decimal.Signed
  balance_value  : balance.value = balanceUsd
  warning_value  : warning.value = warningThreshold
  hardStop_value : hardStop.value = hardStopThreshold
  id_lt          : providerId < 16 ^ 32
  fallback_lt    : ∀ id ∈ fallbackProviderId, id < 16 ^ 32

-- What `_cache_status` writes.
def SpelledStatus.payload (s : SpelledStatus) : Json := .dict [
  ("provider_id", .str (Billing.uuidStr s.providerId)),
  ("name", .str s.name),
  ("status", .str s.status.text),
  ("balance_usd", .str s.balance.str),
  ("warning_threshold", .str s.warning.str),
  ("hard_stop_threshold", .str s.hardStop.str),
  ("fallback_provider_id", s.fallbackProviderId.elim .null (.str <| Billing.uuidStr ·)),
  ("is_active", .bool s.isActive)]

-- The decimal that a text spells. A number of JSON, which `_cache_status` never writes, is none.
def decimalItem? (key : String) (data : Json) : Option ℚ :=
  data.textItem? key |>.bind Decimal.parse |>.bind Decimal.toRat?

-- `data.get("fallback_provider_id")`, where it is truthy.
def readFallback (data : Json) : Option (Option UUID) :=
  match data.get "fallback_provider_id" .null with
  | .error _ => none
  | .ok x    =>
    if x.truthy then (data.textItem? "fallback_provider_id").bind Billing.parseUuid |>.map some
    else some none

-- What `_get_cached_status` makes of the data: `none` where an exception is raised.
def readStatus (data : Json) : Option ProviderStatus := do
  let providerId ← (data.textItem? "provider_id").bind Billing.parseUuid
  let name ← data.textItem? "name"
  let status ← (data.textItem? "status").bind Provider.Status.ofText?
  let balanceUsd ← decimalItem? "balance_usd" data
  let warningThreshold ← decimalItem? "warning_threshold" data
  let hardStopThreshold ← decimalItem? "hard_stop_threshold" data
  let fallbackProviderId ← readFallback data
  let isActive ← data.truthyItem? "is_active"
  return {
    providerId, name, status, balanceUsd, warningThreshold, hardStopThreshold, fallbackProviderId,
    isActive }

section

variable (floatRepr : String → String) (now : Time) (server : Redis.Server)

-- `_get_cached_status`
def getCachedStatus (providerId : UUID) : Option ProviderStatus :=
  Json.ofReply floatRepr (server.get now (statusCacheKey providerId)) |>.bind readStatus

-- `_cache_status`
def cacheStatus (s : SpelledStatus) : Redis.Server :=
  server.setex now (statusCacheKey s.providerId) redisProviderStatusTtl (Json.dumps s.payload)

-- `invalidate_provider_status_cache`
def invalidateProviderStatusCache (providerId : UUID) : Redis.Server :=
  server.del [statusCacheKey providerId]

end

theorem SpelledStatus.plain_payload (s : SpelledStatus) : s.payload.Plain := by
  cases hf : s.fallbackProviderId <;> simp [payload, hf, Json.Plain, Json.PlainFields]

theorem uuidStr_ne_empty {id : UUID} (h : id < 16 ^ 32) : Billing.uuidStr id ≠ "" := by
  intro he
  have hp := Billing.parseUuid_uuidStr h
  rw [he] at hp
  cases (show Billing.parseUuid "" = none by decide).symm.trans hp

theorem SpelledStatus.readFallback_payload (s : SpelledStatus) :
    readFallback s.payload = some s.fallbackProviderId := by
  cases hf : s.fallbackProviderId
  case none =>
    simp [readFallback, payload, hf, Json.get, Json.Fields.get, Json.truthy, List.lookup_cons]
  case some id =>
    have hl := s.fallback_lt id (by simp [hf])
    simp [readFallback, payload, hf, Json.get, Json.Fields.get, Json.truthy, Json.textItem?,
      Json.item, List.lookup_cons, Billing.parseUuid_uuidStr hl, uuidStr_ne_empty hl]

-- The entries of what has been written, by their names.
theorem SpelledStatus.item_payload (s : SpelledStatus) :
    s.payload.item "provider_id" = .ok (.str <| Billing.uuidStr s.providerId) ∧
      s.payload.item "name" = .ok (.str s.name) ∧
      s.payload.item "status" = .ok (.str s.status.text) ∧
      s.payload.item "balance_usd" = .ok (.str s.balance.str) ∧
      s.payload.item "warning_threshold" = .ok (.str s.warning.str) ∧
      s.payload.item "hard_stop_threshold" = .ok (.str s.hardStop.str) ∧
      s.payload.item "is_active" = .ok (.bool s.isActive) := by
  simp [payload, Json.item, List.lookup_cons]

-- A status that has been written is read back.
theorem SpelledStatus.readStatus_payload (s : SpelledStatus) :
    readStatus s.payload = some s.toProviderStatus := by
  have ⟨hid, hn, hs, hb, hw, hh, ha⟩ := s.item_payload
  have hb' := s.balance.toRat?_parse_str
  have hw' := s.warning.toRat?_parse_str
  have hh' := s.hardStop.toRat?_parse_str
  rw [s.balance_value] at hb'
  rw [s.warning_value] at hw'
  rw [s.hardStop_value] at hh'
  simp only [readStatus, decimalItem?, Json.textItem?, Json.truthyItem?, hid, hn, hs, hb, hw, hh,
    ha, Option.bind_some, Billing.parseUuid_uuidStr s.id_lt, Provider.Status.ofText?_text, hb', hw',
    hh', s.readFallback_payload]
  rfl

end ProviderBalance
