import AstraGate.Execution.Markup.Theorems.Coherence
import AstraGate.Execution.Store.Step

open Function

namespace Store

open Redis

variable {floatRepr : String → String} {text : Markup.RateText} {server : Server} {s : State}
  {now : Time} {ttl : Nat} {k : Key}

namespace Represents

theorem set (h : Represents text server s) {raw : String} {v : Value k}
    (hv : Holds text k (.text raw) v) :
    Represents text (server.setex now k.render ttl raw) (s.set now k ttl v) :=
  Redis.Represents.update h Key.render_injective (.some ⟨hv, rfl⟩)

theorem drop (h : Represents text server s) (k : Key) :
    Represents text (server.del [k.render]) (s.drop k) := by
  rw [Server.del_singleton]
  exact Redis.Represents.update h Key.render_injective .none

theorem expire (h : Represents text server s) (k : Key) :
    Represents text (server.expire now k.render ttl) (s.expire now k ttl) :=
  Redis.Represents.update h Key.render_injective <| (h k).expire now ttl

-- A scan for keys of markup rates finds no others.
theorem dropMarkups (h : Represents text server s) {keys : List String}
    (hk : ∀ key ∈ keys, Markup.IsMarkupKey key) :
    Represents text (server.del keys) (s.dropMarkups keys) := by
  intro k
  have hd := Redis.Represents.del h keys k
  dsimp only at hd
  by_cases hm : k.render ∈ keys
  case pos =>
    obtain ⟨id, rfl⟩ := Key.eq_markup_of_isMarkupKey (hk _ hm)
    exact hd
  case neg =>
    rw [if_neg hm] at hd
    cases k
    case markup id => rw [State.dropMarkups, if_neg hm]; exact hd
    all_goals exact hd

-- What a service reads is the value that it has under the key.
theorem get (h : Represents text server s) (now : Time) (k : Key) (loads : String → Option γ)
    (f : Value k → γ)
    (hv : ∀ d v, Holds text k d v → ∃ raw, d = .text raw ∧ loads raw = some (f v)) :
    ∃ raw, server.get now k.render = .ok raw ∧ raw.bind loads = (s.value now k).map f := by
  have ⟨raw, hr, hl⟩ := Server.get_of_matches now hv (h k)
  exact ⟨raw, hr, hl.trans (by rw [State.value, Option.map_map]; rfl)⟩

theorem getCachedStatus (h : Represents text server s) (providerId : Cache.Id) :
    ProviderBalance.getCachedStatus floatRepr now server providerId.val =
      s.value now (.providerStatus providerId) := by
  have hv : ∀ d v, Holds text (.providerStatus providerId) d v → ∃ raw, d = .text raw ∧
      (Json.loads floatRepr raw).bind ProviderBalance.readStatus = some v := by
    intro d v hd
    obtain ⟨status, hs, hd⟩ := hd
    refine ⟨_, hd, ?_⟩
    rw [Json.loads_dumps floatRepr status.plain_payload, Option.bind_some,
      status.readStatus_payload, hs]
  have ⟨raw, hr, hl⟩ := h.get now _ _ (fun v => v) hv
  have hr : server.get now (ProviderBalance.statusCacheKey providerId.val) = .ok raw := hr
  rw [ProviderBalance.getCachedStatus, hr, Json.ofReply_ok, Option.bind_assoc, hl, Option.map_id']

theorem getCachedKeywords (h : Represents text server s) :
    Guardrail.getCachedKeywords floatRepr now server = s.value now .keywords := by
  have hv : ∀ d v, Holds text .keywords d v → ∃ raw, d = .text raw ∧
      (Json.loads floatRepr raw).bind Guardrail.readKeywords = some v := by
    intro d v hd
    refine ⟨_, hd, ?_⟩
    rw [Json.loads_dumps floatRepr (Guardrail.plain_keywords v), Option.bind_some,
      Guardrail.readKeywords_payload]
  have ⟨raw, hr, hl⟩ := h.get now _ _ (fun v => v) hv
  have hr : server.get now Guardrail.redisGuardrailKey = .ok raw := hr
  rw [Guardrail.getCachedKeywords, hr, Json.ofReply_ok, Option.bind_assoc, hl, Option.map_id']

-- What is written for a virtual key is no empty text.
theorem getKeyFromCache (h : Represents text server s) (keyHash : String) :
    (VirtualKeyAuth.getKeyFromCache floatRepr now keyHash server).map
        VirtualKeyAuth.cachedIsActive =
      (s.value now (.virtualKey keyHash)).map (.ok ·.isActive) := by
  have hv : ∀ d v, Holds text (.virtualKey keyHash) d v → ∃ raw, d = .text raw ∧
      ((some raw).filter (· ≠ "")).bind (Json.loads floatRepr) = some v.payload := by
    intro d v hd
    have hn : Json.dumps v.payload ≠ "" := by
      rw [← String.toList_inj.ne, Json.dumps, String.toList_ofList]
      exact List.cons_ne_nil _ _
    refine ⟨_, hd, ?_⟩
    rw [Option.filter_some, if_pos (decide_eq_true hn), Option.bind_some,
      Json.loads_dumps floatRepr v.plain_payload]
  obtain ⟨raw, hr, hl⟩ := h.get now (.virtualKey keyHash) _ (fun v => v.payload) hv
  have hr : server.get now (VirtualKey.cacheKey keyHash) = .ok raw := hr
  have hf : (raw.filter (· ≠ "")).bind (Json.loads floatRepr) =
      raw.bind fun raw => ((some raw).filter (· ≠ "")).bind (Json.loads floatRepr) := by
    cases raw <;> rfl
  rw [VirtualKeyAuth.getKeyFromCache, hr]
  dsimp only
  rw [hf, hl, Option.map_map]
  exact Option.map_congr fun v _ => v.cachedIsActive_payload

theorem getCachedRate (h : Represents text server s) (modelId : Cache.Id) :
    (server.get now <| Markup.cacheKey Billing.uuidStr modelId.val).toOption.join.bind text.float =
      s.value now (.markup modelId) := by
  have hv : ∀ d v, Holds text (.markup modelId) d v → ∃ raw, d = .text raw ∧
      text.float raw = some v :=
    fun d v hd => ⟨_, hd, text.float_str v⟩
  have ⟨raw, hr, hl⟩ := h.get now _ _ (fun v => v) hv
  have hr : server.get now (Markup.cacheKey Billing.uuidStr modelId.val) = .ok raw := hr
  rw [hr]
  exact hl.trans Option.map_id'

theorem getHold (h : Represents text server s) (requestId : String) :
    Credit.getHold now requestId server = s.value now (.hold requestId) := by
  have hv : ∀ d v, Holds text (.hold requestId) d v → ∃ raw, d = .text raw ∧
      Credit.readHold raw = some v := by
    intro d v hd
    obtain ⟨userId, amount, ha, hd⟩ := hd
    exact ⟨_, hd, (Credit.readHold_holdData userId amount).trans (congrArg some ha)⟩
  have ⟨raw, hr, hl⟩ := h.get now _ _ (fun v => v) hv
  have hr : server.get now (Credit.holdCacheKey requestId) = .ok raw := hr
  rw [Credit.getHold, hr]
  exact hl.trans Option.map_id'

end Represents

section

variable (floatRepr now)

-- The server replies to a command what the services understand, and stores what they see.
theorem serve_handle (h : Represents text server s) (c : Command) :
    (c.serve floatRepr text now server).1 = (s.handle now c).1 ∧
      Represents text (c.serve floatRepr text now server).2 (s.handle now c).2 := by
  cases c
  all_goals simp only [Command.serve, State.handle, true_and]
  case getCachedStatus id    => exact ⟨congrArg Reply.status (h.getCachedStatus id), h⟩
  case getKeyFromCache key   => exact ⟨congrArg Reply.active (h.getKeyFromCache key), h⟩
  case getCachedRate id      => exact ⟨congrArg Reply.rate (h.getCachedRate id), h⟩
  case getHold requestId     => exact ⟨congrArg Reply.hold (h.getHold requestId), h⟩
  case getCachedKeywords     => exact ⟨congrArg Reply.keywords h.getCachedKeywords, h⟩
  case countIps id w         =>
    exact ⟨congrArg Reply.members (Server.scard_of_matches now (h (.ips id w))), h⟩
  case incrWindow id w =>
    have ⟨hr, e, he, hm⟩ := Server.incr_of_matches now (h (.rateLimit id w))
    exact ⟨congrArg Reply.count hr, he ▸ Redis.Represents.update h Key.render_injective hm⟩
  case incrAttempts id =>
    have ⟨hr, e, he, hm⟩ := Server.incr_of_matches now (h (.loginAttempts id))
    exact ⟨congrArg Reply.count hr, he ▸ Redis.Represents.update h Key.render_injective hm⟩
  case addIp id w clientIp =>
    have ⟨_, e, he, hm⟩ := Server.sadd_of_matches now (h (.ips id w)) clientIp
    exact he ▸ Redis.Represents.update h Key.render_injective hm
  case cacheStatus status              => exact h.set (.status status)
  case setHold requestId userId amount => exact h.set (.hold requestId userId amount)
  case setKeyInCache keyHash key       => exact h.set (.virtualKey keyHash key)
  case cacheRate id rate               => exact h.set (.rate id rate)
  case blacklist jti ttl               => exact h.set (.blacklisted jti)
  case cacheKeywords keywords          => exact h.set (.keywords keywords)
  case invalidateMarkups matching      => exact sweep_eq_delete ▸ h.dropMarkups matching
  case deleteMarkups matching          => exact h.dropMarkups matching
  case expireIps id w                  => exact h.expire (.ips id w)
  case expireWindow id w               => exact h.expire (.rateLimit id w)
  case expireAttempts id               => exact h.expire (.loginAttempts id)
  case invalidateProviderStatusCache i => exact h.drop (.providerStatus i)
  case dropKey keyHash                 => exact h.drop (.virtualKey keyHash)
  case invalidateMarkupCache id        => exact h.drop (.markup id)
  case releaseRedisHold requestId      => exact h.drop (.hold requestId)
  case resetAttempts id                => exact h.drop (.loginAttempts id)
  case invalidateKeywordCache          => exact h.drop .keywords
  case other key entry foreign =>
    intro k
    rw [update_of_ne (foreign k)]
    exact h k

-- Whatever the services ask for, in which order and when, and whatever other clients do to keys of
-- their own: each service gets the replies of a store that has its values alone, under their ids
-- and with their types, and no reply is an error.
theorem serveAll_handleAll (cs : List (Time × Command)) (h : Represents text server s) :
    (serveAll floatRepr text cs server).1 = (handleAll cs s).1 ∧
      Represents text (serveAll floatRepr text cs server).2 (handleAll cs s).2 := by
  induction cs generalizing server s
  case nil => exact ⟨rfl, h⟩
  case cons c cs ih =>
    obtain ⟨now, c⟩ := c
    have ⟨hr, hs⟩ := serve_handle floatRepr now h c
    have ⟨hrs, hss⟩ := ih hs
    exact ⟨congrArg₂ List.cons hr hrs, hss⟩

end

-- A provider and a hold are read in time, and the status once more when it has expired.
theorem serveAll_handleAll_of_expiry :
    ∃ cs, (serveAll id Markup.quarterText cs fun _ => none).1 =
      [.done, .done, .status (some ⟨7, "openai", .warning, -1 / 2, 10, 2, none, true⟩),
        .hold (some (1 / 4)), .status none] ∧
      Represents Markup.quarterText (serveAll id Markup.quarterText cs fun _ => none).2
        (handleAll cs fun _ => none).2 := by
  let status : ProviderBalance.SpelledStatus := {
    providerId         := 7
    name               := "openai"
    status             := .warning
    balanceUsd         := -1 / 2
    warningThreshold   := 10
    hardStopThreshold  := 2
    fallbackProviderId := none
    isActive           := true
    balance            := ⟨true, ⟨5000, -4, by decide⟩⟩
    warning            := ⟨false, ⟨1000, -2, by decide⟩⟩
    hardStop           := ⟨false, ⟨200, -2, by decide⟩⟩
    balance_value      := by decide +kernel
    warning_value      := by decide +kernel
    hardStop_value     := by decide +kernel
    id_lt              := by decide
    fallback_lt        := by simp }
  let cs : List (Time × Command) := [
    (0, .cacheStatus status),
    (10, .setHold "a:b" 9 ⟨false, ⟨25, -2, by decide⟩⟩),
    (29999, .getCachedStatus ⟨7, by decide⟩),
    (29999, .getHold "a:b"),
    (30000, .getCachedStatus ⟨7, by decide⟩)]
  have he : Represents Markup.quarterText (fun _ => none) (fun _ => none) :=
    represents_empty _ fun _ => rfl
  have ha : Decimal.Signed.value ⟨false, ⟨25, -2, by decide⟩⟩ = 1 / 4 := by decide +kernel
  have ⟨hr, hs⟩ := serveAll_handleAll id cs he
  exact ⟨cs, hr.trans (ha ▸ rfl), hs⟩

end Store
