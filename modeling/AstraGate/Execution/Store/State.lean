import AstraGate.Execution.Store.Key

namespace Store

open Redis

-- What is kept under a key.
abbrev Value : Key → Type
  | .providerStatus _   => ProviderBalance.ProviderStatus
  | .virtualKey _       => VirtualKeyAuth.CachedKey
  | .ips ..             => Finset String
  | .markup _           => ℚ
  | .hold _             => ℚ
  | .rateLimit ..       => Nat
  | .loginAttempts _    => Nat
  | .refreshBlacklist _ => Unit
  | .keywords           => List Guardrail.Keyword

-- The store as the services see it: each of them has values of its own type under keys of its own.
abbrev State := ∀ k : Key, Option (Entry (Value k))

-- `json` and `str` write the value like this.
def Holds (text : Markup.RateText) : ∀ k : Key, Data → Value k → Prop
  | .providerStatus _, d, v   =>
    ∃ s : ProviderBalance.SpelledStatus, s.toProviderStatus = v ∧ d = .text (Json.dumps s.payload)
  | .virtualKey _, d, v       => d = .text (Json.dumps v.payload)
  | .ips .., d, v             => Redis.Contains d v
  | .markup _, d, v           => d = .text (text.str v)
  | .hold _, d, v             => ∃ userId amount, amount.value = v ∧
    d = .text (Credit.holdData userId amount)
  | .rateLimit .., d, v       => Counts d v
  | .loginAttempts _, d, v    => Counts d v
  | .refreshBlacklist _, d, _ => d = .text "1"
  | .keywords, d, v           => d = .text (Json.dumps <| .list <| v.map Guardrail.Keyword.payload)

namespace Holds

variable {text : Markup.RateText}

theorem status (status : ProviderBalance.SpelledStatus) :
    Holds text (.providerStatus ⟨status.providerId, status.id_lt⟩)
      (.text <| Json.dumps status.payload) status.toProviderStatus :=
  ⟨status, rfl, rfl⟩

theorem virtualKey (keyHash : String) (key : VirtualKeyAuth.CachedKey) :
    Holds text (.virtualKey keyHash) (.text <| Json.dumps key.payload) key :=
  rfl

theorem rate (id : Cache.Id) (rate : ℚ) : Holds text (.markup id) (.text <| text.str rate) rate :=
  rfl

theorem hold (requestId : String) (userId : UUID) (amount : Decimal.Signed) :
    Holds text (.hold requestId) (.text <| Credit.holdData userId amount) amount.value :=
  ⟨userId, amount, rfl, rfl⟩

theorem blacklisted (jti : String) : Holds text (.refreshBlacklist jti) (.text "1") () :=
  rfl

theorem keywords (keywords : List Guardrail.Keyword) : Holds text .keywords
    (.text <| Json.dumps <| .list <| keywords.map Guardrail.Keyword.payload) keywords :=
  rfl

end Holds

-- The server stores what the services see. It may store anything else under other keys.
def Represents (text : Markup.RateText) (server : Server) (s : State) : Prop :=
  Redis.Represents Key.render (Holds text) server s

theorem represents_empty (text : Markup.RateText) {server : Server}
    (h : ∀ k : Key, server k.render = none) : Represents text server (fun _ => none) := by
  intro k
  rw [h k]
  exact .none

end Store
