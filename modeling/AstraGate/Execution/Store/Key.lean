import AstraGate.Api.Auth.Session
import AstraGate.Middleware.IpTracking
import AstraGate.Services.Cache.Hold
import AstraGate.Services.Cache.Keywords
import AstraGate.Services.Cache.ProviderStatus
import AstraGate.Services.Cache.VirtualKey
import AstraGate.Services.Markup

-- The one Redis that all parts of the service share.
namespace Store

open Cache (Id)

inductive Key
  | providerStatus (providerId : Id)
  | virtualKey (keyHash : String)
  | ips (keyId : Id) (hourWindow : Nat)
  | markup (modelId : Id)
  | hold (requestId : String)
  | rateLimit (keyId : Id) (minuteWindow : Nat)
  | loginAttempts (userId : Id)
  | refreshBlacklist (jti : String)
  | keywords
deriving DecidableEq

namespace Key

def render : Key → String
  | providerStatus id   => ProviderBalance.statusCacheKey id.val
  | virtualKey keyHash  => VirtualKey.cacheKey keyHash
  | ips id w            => IpTracking.trackingKey id.str w
  | markup id           => Markup.cacheKey Billing.uuidStr id.val
  | hold requestId      => Credit.holdCacheKey requestId
  | rateLimit id w      => RateLimit.buildKey id.str w
  | loginAttempts id    => Auth.loginAttemptsKey Billing.uuidStr id.val
  | refreshBlacklist j  => Auth.blacklistKey j
  | keywords            => Guardrail.redisGuardrailKey

-- What stands before the first colon.
def family : Key → String
  | providerStatus _   => "provider_status"
  | virtualKey _       => "vk"
  | ips ..             => "vk_ips"
  | markup _           => "markup"
  | hold _             => "credit_hold"
  | rateLimit ..       => "rate_limit"
  | loginAttempts _    => "login_attempts"
  | refreshBlacklist _ => "refresh_blacklist"
  | keywords           => "guardrails"

theorem takeWhile_render (k : Key) :
    k.render.toList.takeWhile (· ≠ ':') = k.family.toList := by
  cases k <;> simp [render, family, ProviderBalance.statusCacheKey, VirtualKey.cacheKey,
    IpTracking.trackingKey, Markup.cacheKey, Credit.holdCacheKey, RateLimit.buildKey,
    Auth.loginAttemptsKey, Auth.blacklistKey, ProviderBalance.redisProviderStatusPrefix,
    VirtualKey.redisVkPrefix, IpTracking.ipTrackingPrefix, Markup.redisMarkupPrefix,
    Credit.redisHoldPrefix, RateLimit.rateLimitPrefix, Auth.loginAttemptsPrefix,
    Auth.refreshBlacklistPrefix, Guardrail.redisGuardrailKey]

theorem family_eq {k k' : Key} (h : k.render = k'.render) : k.family = k'.family := by
  rw [← String.toList_inj, ← takeWhile_render, ← takeWhile_render, h]

theorem append_inj {s t t' : String} (h : s ++ t = s ++ t') : t = t' := by
  rw [← String.toList_inj, String.toList_append, String.toList_append,
    List.append_cancel_left_eq, String.toList_inj] at h
  exact h

theorem append_str_inj {s : String} {id id' : Id}
    (h : s ++ Billing.uuidStr id.val = s ++ Billing.uuidStr id'.val) : id = id' :=
  Cache.Id.str_injective (append_inj h)

-- Nobody writes to the keys of somebody else.
theorem render_injective : Function.Injective render := by
  intro k k' h
  have hf := family_eq h
  cases k <;> cases k'
  case providerStatus.providerStatus     => exact congrArg providerStatus (append_str_inj h)
  case virtualKey.virtualKey             => exact congrArg virtualKey (append_inj h)
  case markup.markup                     => exact congrArg markup (append_str_inj h)
  case hold.hold                         => exact congrArg hold (append_inj h)
  case loginAttempts.loginAttempts       => exact congrArg loginAttempts (append_str_inj h)
  case refreshBlacklist.refreshBlacklist => exact congrArg refreshBlacklist (append_inj h)
  case keywords.keywords                 => rfl
  case ips.ips =>
    have ⟨hid, hw⟩ := IpTracking.trackingKey_inj.mp h
    rw [Cache.Id.str_injective hid, hw]
  case rateLimit.rateLimit =>
    have ⟨hid, hw⟩ := RateLimit.buildKey_inj.mp h
    rw [Cache.Id.str_injective hid, hw]
  all_goals simp [family] at hf

-- Of these keys only those of markup rates match the pattern of `invalidate_markup_cache`.
theorem eq_markup_of_isMarkupKey {k : Key} (h : Markup.IsMarkupKey k.render) :
    ∃ id, k = markup id := by
  have hf : k.family = "markup" := by
    obtain ⟨rest, hr⟩ := h
    rw [← String.toList_inj, ← takeWhile_render, ← hr]
    rfl
  cases k
  case markup id => exact ⟨id, rfl⟩
  all_goals simp [family] at hf

end Key
end Store
