import AstraGate.Execution.IpTracking.State
import AstraGate.Lib.Steps
import Mathlib.Logic.Embedding.Basic

open Function

namespace IpTracking

-- `str` of a UUID.
variable (str : UUID ↪ String)

namespace State

variable (s : State)

def key (c : Call) : String :=
  trackingKey (str c.keyId) c.hourWindow

-- The `SADD` of `_track_ip_usage`.
def add (t : TaskId) (c : Call) : State :=
  let set := Redis.add s.now c.clientIp (s.sets (key str c))
  { s with sets := update s.sets (key str c) (some set) }.setTask t <| .added c

-- The `EXPIRE`.
def expire (t : TaskId) (c : Call) : State :=
  let set := Redis.expire s.now ipTrackingTtl (s.sets (key str c))
  { s with sets := update s.sets (key str c) set }.setTask t <| .kept c

-- The `SCARD`.
def count (t : TaskId) (c : Call) : State :=
  s.setTask t <| .counted c <| Redis.card s.now (s.sets (key str c))

end State

-- The steps of the tasks between two points at which another one can get its turn.
inductive Step (s : State) : State → Type
  | tick (d : Time) : Step s { s with now := s.now + d }
  | begin (t : TaskId) (keyId : UUID) (clientIp : String) (task : s.tasks t = .fresh) :
    Step s (s.setTask t <| .begun { keyId, clientIp, hourWindow := hourWindow s.now })
  | add (t : TaskId) (c : Call) (task : s.tasks t = .begun c) : Step s (s.add str t c)
  | expire (t : TaskId) (c : Call) (task : s.tasks t = .added c) : Step s (s.expire str t c)
  | count (t : TaskId) (c : Call) (task : s.tasks t = .kept c) : Step s (s.count str t c)
  | failAdd (t : TaskId) (c : Call) (task : s.tasks t = .begun c) :
    Step s (s.setTask t <| .failed c)
  | failLater (t : TaskId) (c : Call) (task : s.tasks t = .added c ∨ s.tasks t = .kept c) :
    Step s (s.setTask t <| .lost c)

abbrev Run := Steps (Step str)

variable {str}

-- Addresses are added and counted before the window is over.
def Step.Prompt {s s' : State} (e : Step str s s') : Prop :=
  match e with
  | add _ c _ | count _ c _ => s.now < 3600000 * (c.hourWindow + 1)
  | _                       => True

end IpTracking
