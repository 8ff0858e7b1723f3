import AstraGate.Lib.Escrow
import AstraGate.Lib.Table
import AstraGate.Services.Credit
import Mathlib.Algebra.BigOperators.Group.Finset.Basic

open Function

namespace Credit

-- Ids of the HTTP requests that reach the service: calls of the gateway, each of which holds credit
-- under its own id, and deliveries to the webhook.
abbrev RequestId := Nat

-- What a call has passed to `hold_credit`, and the time of its `SET` if that has succeeded.
structure Request where
  userId : UUID
  amount : ℚ
  setAt  : Option Time
deriving DecidableEq

-- How a call ends once its hold is committed.
inductive Resolution
  | settle (actualCost : ℚ) (usageRecordId : Option UUID)
  | release
deriving DecidableEq

-- The time of the `GET` that `_get_hold_amount` has sent if that has succeeded, and its result.
structure Lookup where
  getAt      : Option Time
  heldAmount : Option ℚ
deriving DecidableEq

-- The key has been written, and has been read before it expired.
def Lookup.Found (l : Lookup) (q : Request) : Prop :=
  ∃ set get, q.setAt = some set ∧ l.getAt = some get ∧ get < set + redisHoldTtl

-- How far a request has come, with the variables of its handler. Between `holding` and `held`, and
-- between `adjusted` and `resolved`, a call's transaction is open, and `txs` are the rows that the
-- transaction has inserted into `credit_transactions`. An aborted task is as it was when its
-- transaction was rolled back.
inductive Task
  | fresh
  | rejected (error : InsufficientCreditError)
  | holding (q : Request)
  | stored (q : Request)
  | held (q : Request)
  | looked (q : Request) (how : Resolution) (l : Lookup)
  | adjusted (q : Request) (how : Resolution) (l : Lookup) (txs : List CreditTransaction)
  | cleaned (q : Request) (how : Resolution) (l : Lookup) (txs : List CreditTransaction)
  | resolved (q : Request) (how : Resolution) (l : Lookup)
  | crediting (now : Time) (u : UUID) (amount : ℚ) (tx : CreditTransaction)
  | finished
  | aborted (t : Task)

-- The reservation that a call has open between the commit of its hold and that of its resolution.
@[simp]
def Task.outstanding : Task → Option (UUID × ℚ)
  | held q | looked q .. | adjusted q .. | cleaned q .. => some (q.userId, q.amount)
  | aborted t => t.outstanding
  | _ => none

structure State where
  now      : Time
  accounts : Table UUID RequestId (Option CreditAccount)
  ledger   : List CreditTransaction
  holds    : RequestId → Option Hold
  tasks    : RequestId → Task
  started  : Finset RequestId
  fresh    : ∀ r ∉ started, tasks r = .fresh

namespace State

def setTask (s : State) (r : RequestId) (t : Task) : State :=
  { s with
    tasks   := update s.tasks r t
    started := insert r s.started
    fresh   := by
      intro r' hr
      simp only [Finset.mem_insert, not_or] at hr
      rw [update_of_ne hr.left, s.fresh r' hr.right] }

-- The committed balance of a user.
def balance (s : State) (u : UUID) : ℚ :=
  s.accounts.rows u |>.elim 0 CreditAccount.balanceUsd

-- The sum of a user's outstanding holds.
def outstanding (s : State) (u : UUID) : ℚ :=
  ∑ r ∈ s.started, Escrow.share u (s.tasks r).outstanding

-- The service before its first request.
def initial (accounts : UUID → Option CreditAccount) (ledger : List CreditTransaction) : State where
  now      := 0
  accounts := { rows := accounts, pending := fun _ => none }
  ledger   := ledger
  holds    := fun _ => none
  tasks    := fun _ => .fresh
  started  := ∅
  fresh    := fun _ _ => rfl

structure Initial (s : State) : Prop where
  fresh : ∀ r, s.tasks r = .fresh
  quiet : s.accounts.Quiet
  empty : ∀ r, s.holds r = none

variable {s : State} {r : RequestId} {t : Task}

theorem initial_isInitial : (initial rows txs).Initial where
  fresh _ := rfl
  quiet _ := rfl
  empty _ := rfl

@[simp]
theorem setTask_now : (s.setTask r t).now = s.now :=
  rfl

@[simp]
theorem setTask_accounts : (s.setTask r t).accounts = s.accounts :=
  rfl

@[simp]
theorem setTask_ledger : (s.setTask r t).ledger = s.ledger :=
  rfl

@[simp]
theorem setTask_holds : (s.setTask r t).holds = s.holds :=
  rfl

@[simp]
theorem setTask_tasks : (s.setTask r t).tasks = update s.tasks r t :=
  rfl

-- What holds of all tasks holds of them after one has changed.
theorem forall_of_update {s' : State} {P : RequestId → Task → Prop} (h : ∀ r, P r (s.tasks r))
    (ht : s.tasks r = t) (hs : s'.tasks = update s.tasks r t') (hp : P r t → P r t') :
    ∀ r, P r (s'.tasks r) := by
  rw [hs]
  exact (forall_update_iff s.tasks P).mpr ⟨hp (ht ▸ h r), fun r' _ => h r'⟩

theorem finite_outstanding (s : State) : {r | (s.tasks r).outstanding ≠ none}.Finite := by
  refine s.started.finite_toSet.subset (fun r hr => ?_)
  by_contra hn
  exact hr (s.fresh r hn ▸ rfl)

-- The escrow that the state implements: the funds of a user are the balance and what is held of it.
def escrow (s : State) : Escrow UUID RequestId ℚ where
  funds u := s.balance u + s.outstanding u
  held r  := (s.tasks r).outstanding
  finite  := s.finite_outstanding

theorem reserved_escrow : s.escrow.reserved u = s.outstanding u := by
  refine finsum_eq_sum_of_support_subset _ (fun r hr => ?_)
  by_contra hn
  exact hr (by simp [escrow, s.fresh r hn, Task.outstanding])

theorem available_escrow : s.escrow.available u = s.balance u := by
  rw [Escrow.available, reserved_escrow]
  exact add_sub_cancel_right ..

theorem outstanding_update {s' : State} (h : s'.tasks = update s.tasks r t) :
    s'.outstanding u =
      s.outstanding u +
        (Escrow.share u t.outstanding - Escrow.share u (s.tasks r).outstanding) := by
  have hh : s'.escrow.held = (s.escrow.assign r t.outstanding).held := by
    funext r'
    by_cases hr : r' = r <;> simp [escrow, Escrow.assign, h, hr]
  rw [← reserved_escrow, ← reserved_escrow, Escrow.reserved, hh]
  exact Escrow.reserved_assign t.outstanding

end State
end Credit
