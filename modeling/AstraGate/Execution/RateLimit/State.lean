import AstraGate.Middleware.RateLimit
import Mathlib.Data.Finset.Card

open Function

namespace RateLimit

-- Ids of the calls of `enforce_rate_limit`.
abbrev CallId := Nat

-- How far a call has come. A call that is `first` has counted 1, and is about to set the time to
-- live of the counter. The count that a call decides with is missing if Redis has failed.
inductive Task
  | fresh
  | unlimited (key : VirtualKey)
  | reading (key : VirtualKey) (now : Time)
  | first (key : VirtualKey) (now : Time)
  | decided (key : VirtualKey) (now : Time) (count : Option Nat)
deriving DecidableEq

namespace Task

-- The virtual key of a call that has read the clock, its limit, and the window of the reading.
def slot : Task → Option (UUID × Nat)
  | reading key now | first key now | decided key now _ => some (key.id, minuteWindow now)
  | _ => none

-- The reading of the clock of a call that is not over.
def readAt : Task → Option Time
  | reading _ now | first _ now => some now
  | _ => none

def limit : Task → Option Nat
  | reading key _ | first key _ | decided key _ _ => key.rateLimitRpm
  | _ => none

-- What the counter was when the call incremented it.
def number : Task → Option Nat
  | first ..          => some 1
  | decided _ _ count => count
  | _                 => none

-- What a call that is over has returned, or raised.
def result : Task → Option (Except TooManyRequests VirtualKey)
  | unlimited key         => some (.ok key)
  | decided key now count => some (enforceRateLimit key now count)
  | _                     => none

def passes (t : Task) : Bool :=
  t.result.any (·.isOk)

end Task

structure State where
  now      : Time
  counters : String → Option (Redis.Entry Nat)
  tasks    : CallId → Task
  started  : Finset CallId
  fresh    : ∀ r ∉ started, tasks r = .fresh

namespace State

def setTask (s : State) (r : CallId) (t : Task) : State :=
  { s with
    tasks   := update s.tasks r t
    started := insert r s.started
    fresh   := by
      intro r' hr
      simp only [Finset.mem_insert, not_or] at hr
      rw [update_of_ne hr.left, s.fresh r' hr.right] }

def initial : State where
  now      := 0
  counters := fun _ => none
  tasks    := fun _ => .fresh
  started  := ∅
  fresh    := fun _ _ => rfl

structure Initial (s : State) : Prop where
  fresh : ∀ r, s.tasks r = .fresh
  empty : ∀ key, s.counters key = none

-- The calls for a virtual key whose reading of the clock falls in a window, and those of them that
-- have incremented the counter.
def calls (s : State) (k : UUID) (w : Nat) : Finset CallId :=
  s.started.filter fun r => (s.tasks r).slot = some (k, w)

def counted (s : State) (k : UUID) (w : Nat) : Finset CallId :=
  (s.calls k w).filter fun r => (s.tasks r).number ≠ none

def passed (s : State) (k : UUID) (w : Nat) : Finset CallId :=
  (s.calls k w).filter fun r => (s.tasks r).passes

-- The number that a call has drawn from the counter.
def number (s : State) (r : CallId) : Nat :=
  (s.tasks r).number.getD 0

variable {s : State} {r : CallId} {t : Task} {k : UUID} {w : Nat}

theorem initial_isInitial : initial.Initial where
  fresh _ := rfl
  empty _ := rfl

@[simp]
theorem setTask_tasks : (s.setTask r t).tasks = update s.tasks r t :=
  rfl

theorem mem_calls : r ∈ s.calls k w ↔ (s.tasks r).slot = some (k, w) := by
  refine Finset.mem_filter.trans (and_iff_right_of_imp fun h => ?_)
  by_contra hn
  rw [s.fresh r hn] at h
  contradiction

theorem mem_counted :
    r ∈ s.counted k w ↔ (s.tasks r).slot = some (k, w) ∧ (s.tasks r).number ≠ none :=
  Finset.mem_filter.trans (and_congr_left' mem_calls)

end State
end RateLimit
