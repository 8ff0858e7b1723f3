import AstraGate.Lib.Redis
import AstraGate.Models.VirtualKey

namespace RateLimit

-- `RATE_LIMIT_PREFIX`
def rateLimitPrefix : String :=
  "rate_limit:"

-- `RATE_LIMIT_TTL`
def rateLimitTtl : Time :=
  120000

-- `WINDOW_SECONDS`
def windowSeconds : Nat :=
  60

-- `int(now)`
def seconds (now : Time) : Nat :=
  now / 1000

def minuteWindow (now : Time) : Nat :=
  seconds now / windowSeconds

-- `_build_key`
def buildKey (virtualKeyId : String) (minuteWindow : Nat) : String :=
  rateLimitPrefix ++ virtualKeyId ++ ":" ++ toString minuteWindow

-- The exception with status 429, and its header `Retry-After`.
structure TooManyRequests where
  detail     : String
  retryAfter : Nat
deriving DecidableEq

def retryAfter (now : Time) : Nat :=
  max 1 (windowSeconds - seconds now % windowSeconds)

-- What `enforce_rate_limit` makes of the counter, which it does not know if Redis has failed.
def enforceRateLimit (virtualKey : VirtualKey) (now : Time) (count : Option Nat) :
    Except TooManyRequests VirtualKey :=
  match virtualKey.rateLimitRpm, count with
  | none, _ | _, none => .ok virtualKey
  | some limit, some count =>
    if limit < count then
      let retryAfter := retryAfter now
      .error {
        detail := "Rate limit exceeded: " ++ toString limit ++ " requests per minute. " ++
          "Retry after " ++ toString retryAfter ++ " seconds."
        retryAfter }
    else
      .ok virtualKey

theorem enforceRateLimit_of_le (h : key.rateLimitRpm = some limit) (hc : count ≤ limit) :
    enforceRateLimit key now (some count) = .ok key := by
  simp [enforceRateLimit, h, not_lt.mpr hc]

theorem enforceRateLimit_of_lt (now : Time) (h : key.rateLimitRpm = some limit)
    (hc : limit < count) :
    ∃ e, enforceRateLimit key now (some count) = .error e ∧ e.retryAfter = retryAfter now := by
  simp [enforceRateLimit, h, hc]

-- The header names the first second of the next window.
theorem seconds_add_retryAfter (now : Time) : 1 ≤ retryAfter now ∧ retryAfter now ≤ windowSeconds ∧
    seconds now + retryAfter now = windowSeconds * (minuteWindow now + 1) := by
  simp only [retryAfter, minuteWindow, windowSeconds]
  omega

-- A counter that gets its time to live once the clock has been read outlasts every call that has
-- read the clock in the same window and is less than a minute late.
theorem lt_of_lt_add {now t : Nat} (h : t < now + 60000) : t < 60000 * (minuteWindow now + 2) := by
  simp only [minuteWindow, seconds, windowSeconds]
  omega

theorem le_add_rateLimitTtl {now t : Nat} (h : now ≤ t) :
    60000 * (minuteWindow now + 2) ≤ t + rateLimitTtl := by
  simp only [minuteWindow, seconds, windowSeconds, rateLimitTtl]
  omega

theorem toList_buildKey {virtualKeyId : String} {w : Nat} :
    (buildKey virtualKeyId w).toList =
      rateLimitPrefix.toList ++ (virtualKeyId.toList ++ ':' :: Nat.toDigits 10 w) := by
  simp [buildKey]

-- What follows the last colon of a key are the digits of the window.
theorem reverse_takeWhile_buildKey (virtualKeyId : String) (w : Nat) :
    (buildKey virtualKeyId w).toList.reverse.takeWhile (· ≠ ':') = (Nat.toDigits 10 w).reverse := by
  have hd : ∀ c ∈ (Nat.toDigits 10 w).reverse, (c ≠ ':' : Bool) := by
    intro c hc
    have hc := Nat.isDigit_of_mem_toDigits (by decide) (by decide) (List.mem_reverse.mp hc)
    have hn : c ≠ ':' := fun he => absurd (he ▸ hc) (by decide)
    exact decide_eq_true hn
  rw [toList_buildKey, List.reverse_append, List.reverse_append, List.reverse_cons,
    List.append_assoc, List.append_assoc, List.takeWhile_append_of_pos hd]
  simp

-- Keys of different virtual keys or windows are different.
theorem buildKey_inj {id id' : String} {w w' : Nat} :
    buildKey id w = buildKey id' w' ↔ id = id' ∧ w = w' := by
  refine ⟨fun h => ?_, fun h => by rw [h.left, h.right]⟩
  have hw : w = w' := by
    have hd := reverse_takeWhile_buildKey id w
    rw [h, reverse_takeWhile_buildKey, List.reverse_inj] at hd
    rw [← Nat.ofDigitChars_ten_toDigits (n := w), ← hd, Nat.ofDigitChars_ten_toDigits]
  subst hw
  have hl := congrArg String.toList h
  rw [toList_buildKey, toList_buildKey, List.append_cancel_left_eq, List.append_cancel_right_eq,
    String.toList_inj] at hl
  exact ⟨hl, rfl⟩

end RateLimit
