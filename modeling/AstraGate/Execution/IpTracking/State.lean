import AstraGate.Lib.Redis.Server
import AstraGate.Middleware.IpTracking

open Function

namespace IpTracking

-- Ids of the background tasks that run `_track_ip_usage`.
abbrev TaskId := Nat

-- The arguments of a task, and the window in which it has read the clock.
structure Call where
  keyId      : UUID
  clientIp   : String
  hourWindow : Nat
deriving DecidableEq

def Call.slot (c : Call) : UUID × Nat :=
  (c.keyId, c.hourWindow)

-- How far a task has come. Redis can fail at each of its commands, which ends the task.
inductive Task
  | fresh
  | begun (c : Call)
  | added (c : Call)
  | kept (c : Call)
  | counted (c : Call) (uniqueIps : Nat)
  | failed (c : Call)
  | lost (c : Call)
deriving DecidableEq

namespace Task

def call : Task → Option Call
  | fresh => none
  | begun c | added c | kept c | counted c _ | failed c | lost c => some c

-- The call of a task that has added its address.
def stored : Task → Option Call
  | added c | kept c | counted c _ | lost c => some c
  | _ => none

-- The task has logged a warning.
def warns : Task → Bool
  | counted _ uniqueIps => suspicious uniqueIps
  | _                   => false

theorem call_of_stored {t : Task} (h : t.stored = some c) : t.call = some c := by
  cases t <;> first | exact h | cases h

end Task

structure State where
  now     : Time
  sets    : String → Option (Redis.Entry (Finset String))
  tasks   : TaskId → Task
  started : Finset TaskId
  fresh   : ∀ t ∉ started, tasks t = .fresh

namespace State

def setTask (s : State) (t : TaskId) (k : Task) : State :=
  { s with
    tasks   := update s.tasks t k
    started := insert t s.started
    fresh   := by
      intro t' ht
      simp only [Finset.mem_insert, not_or] at ht
      rw [update_of_ne ht.left, s.fresh t' ht.right] }

def initial : State where
  now     := 0
  sets    := fun _ => none
  tasks   := fun _ => .fresh
  started := ∅
  fresh   := fun _ _ => rfl

structure Initial (s : State) : Prop where
  fresh : ∀ t, s.tasks t = .fresh
  empty : ∀ key, s.sets key = none

-- The tasks for a virtual key in a window.
def calls (s : State) (k : UUID) (w : Nat) : Finset TaskId :=
  s.started.filter fun t => (s.tasks t).call.map Call.slot = some (k, w)

-- The addresses that they have added.
def addresses (s : State) (k : UUID) (w : Nat) : Finset String :=
  (s.started.filter fun t => (s.tasks t).stored.map Call.slot = some (k, w)).image fun t =>
    (s.tasks t).stored.elim "" Call.clientIp

variable {s s' : State} {t : TaskId} {k : UUID} {w : Nat} {ip : String} {task : Task}

theorem initial_isInitial : initial.Initial where
  fresh _ := rfl
  empty _ := rfl

@[simp]
theorem setTask_tasks : (s.setTask t task).tasks = update s.tasks t task :=
  rfl

theorem mem_calls : t ∈ s.calls k w ↔ ∃ c, (s.tasks t).call = some c ∧ c.slot = (k, w) := by
  rw [calls, Finset.mem_filter, Option.map_eq_some_iff]
  refine and_iff_right_of_imp fun h => ?_
  by_contra hn
  rw [s.fresh t hn] at h
  obtain ⟨c, hc, -⟩ := h
  cases hc

theorem mem_addresses : ip ∈ s.addresses k w ↔
    ∃ t c, (s.tasks t).stored = some c ∧ c.slot = (k, w) ∧ c.clientIp = ip := by
  simp only [addresses, Finset.mem_image, Finset.mem_filter, Option.map_eq_some_iff]
  constructor
  case mp =>
    intro ⟨t, ⟨_, c, hc, hs⟩, hi⟩
    rw [hc] at hi
    exact ⟨t, c, hc, hs, hi⟩
  case mpr =>
    intro ⟨t, c, hc, hs, hi⟩
    refine ⟨t, ⟨?_, c, hc, hs⟩, by rw [hc]; exact hi⟩
    by_contra hn
    rw [s.fresh t hn] at hc
    cases hc

-- A task that adds nothing leaves the addresses alone.
theorem addresses_eq (hs : s'.tasks = update s.tasks t task)
    (ht : task.stored = (s.tasks t).stored) : s'.addresses k w = s.addresses k w := by
  have hs : ∀ t', (s'.tasks t').stored = (s.tasks t').stored := by
    intro t'
    by_cases h : t' = t
    case pos => rw [hs, h, update_self, ht]
    case neg => rw [hs, update_of_ne h]
  ext ip
  simp only [mem_addresses, hs]

-- A task adds its own address.
theorem addresses_insert {c : Call} (hs : s'.tasks = update s.tasks t task)
    (ht : task.stored = some c) (hn : (s.tasks t).stored = none) :
    s'.addresses c.keyId c.hourWindow = insert c.clientIp (s.addresses c.keyId c.hourWindow) ∧
      ∀ k w, (k, w) ≠ c.slot → s'.addresses k w = s.addresses k w := by
  have hm : ∀ ip k w, ip ∈ s'.addresses k w ↔
      c.slot = (k, w) ∧ c.clientIp = ip ∨ ip ∈ s.addresses k w := by
    intro ip k w
    simp only [mem_addresses]
    constructor
    case mp =>
      intro ⟨t', c', hc, h⟩
      by_cases he : t' = t
      case pos =>
        rw [hs, he, update_self, ht] at hc
        cases hc
        exact .inl h
      case neg =>
        rw [hs, update_of_ne he] at hc
        exact .inr ⟨t', c', hc, h⟩
    case mpr =>
      rintro (h | ⟨t', c', hc, h⟩)
      · exact ⟨t, c, by rw [hs, update_self, ht], h⟩
      · have he : t' ≠ t := by
          rintro rfl
          cases hn.symm.trans hc
        exact ⟨t', c', by rw [hs, update_of_ne he, hc], h⟩
  constructor
  case left =>
    ext ip
    rw [hm, Finset.mem_insert]
    exact or_congr_left ⟨fun h => h.right.symm, fun h => ⟨rfl, h.symm⟩⟩
  case right =>
    intro k w hk
    ext ip
    rw [hm]
    exact or_iff_right fun h => hk h.left.symm

end State
end IpTracking
