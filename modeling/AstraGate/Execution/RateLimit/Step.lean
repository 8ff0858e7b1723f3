import AstraGate.Execution.RateLimit.State
import AstraGate.Lib.Steps

open Function

namespace RateLimit

-- `str` of a UUID.
variable (str : UUID ↪ String)

namespace State

variable (s : State)

-- The `INCR` of `_incr_window`, whose result decides on what comes next.
def incr (r : CallId) (key : VirtualKey) (now : Time) : State :=
  let redisKey := buildKey (str key.id) (minuteWindow now)
  let counter := Redis.incr s.now (s.counters redisKey)
  { s with counters := update s.counters redisKey (some counter) }.setTask r <|
    if counter.value = 1 then .first key now else .decided key now (some counter.value)

-- The `EXPIRE` of `_incr_window`.
def expire (r : CallId) (key : VirtualKey) (now : Time) : State :=
  let redisKey := buildKey (str key.id) (minuteWindow now)
  let counter := Redis.expire s.now rateLimitTtl (s.counters redisKey)
  { s with counters := update s.counters redisKey counter }.setTask r <| .decided key now (some 1)

end State

-- The steps of `enforce_rate_limit` between two points at which another call can get its turn.
inductive Step (s : State) : State → Type
  | tick (d : Time) : Step s { s with now := s.now + d }
  | pass (r : CallId) (key : VirtualKey) (task : s.tasks r = .fresh)
    (unlimited : key.rateLimitRpm = none) : Step s (s.setTask r <| .unlimited key)
  | read (r : CallId) (key : VirtualKey) (task : s.tasks r = .fresh)
    (limited : key.rateLimitRpm ≠ none) : Step s (s.setTask r <| .reading key s.now)
  | incr (r : CallId) (key : VirtualKey) (now : Time) (task : s.tasks r = .reading key now) :
    Step s (s.incr str r key now)
  | expire (r : CallId) (key : VirtualKey) (now : Time) (task : s.tasks r = .first key now) :
    Step s (s.expire str r key now)
  -- Redis fails, and the call passes.
  | failIncr (r : CallId) (key : VirtualKey) (now : Time) (task : s.tasks r = .reading key now) :
    Step s (s.setTask r <| .decided key now none)
  | failExpire (r : CallId) (key : VirtualKey) (now : Time) (task : s.tasks r = .first key now) :
    Step s (s.setTask r <| .decided key now none)

abbrev Run := Steps (Step str)

variable {str}

-- Redis is available, and increments a counter less than a minute after the clock has been read.
def Step.Prompt {s s' : State} (e : Step str s s') : Prop :=
  match e with
  | incr _ _ now _ => s.now < now + 60000
  | failIncr ..    => False
  | failExpire ..  => False
  | _              => True

end RateLimit
