import AstraGate.Execution.Credit.Step
import Mathlib.Tactic.Ring

open Function

namespace Credit

-- What a resolution changes the balance by, and what it books, if the account exists.
def Resolution.change (how : Resolution) (heldAmount : Option ℚ) : ℚ :=
  match how with
  | settle actualCost _ => heldAmount.getD 0 - actualCost
  | release             => heldAmount.getD 0

def Resolution.booked : Resolution → ℚ
  | settle actualCost _ => -actualCost
  | release             => 0

theorem Resolution.apply_some (how : Resolution) (u : UUID) (heldAmount : Option ℚ)
    (a : CreditAccount) :
    ∃ b txs, how.apply u heldAmount (some a) = (some b, txs) ∧
      b.balanceUsd = a.balanceUsd + how.change heldAmount ∧
      ∀ v, ledgerSum v txs = if u = v then how.booked else 0 := by
  cases how <;> cases heldAmount <;> refine ⟨_, _, rfl, ?_, ?_⟩ <;>
    simp [change, booked, sub_eq_add_neg]

namespace Task

-- What the open transaction of a task has made of the row it has locked.
def Writes : Task → UUID → Option CreditAccount → Option CreditAccount → Prop
  | holding q, u, old, new | stored q, u, old, new =>
    u = q.userId ∧ ∃ a, holdCredit old q.amount = .ok a ∧ new = some a
  | adjusted q how l txs, u, old, new | cleaned q how l txs, u, old, new =>
    u = q.userId ∧ how.apply q.userId l.heldAmount old = (new, txs)
  | crediting now v amount tx, u, old, new =>
    u = v ∧ ∃ id a b, old = some a ∧ Billing.topUp now v amount id a = (b, tx) ∧ new = some b
  | _, _, _, _ => False

-- What the open transaction of a task changes the balance of its row by.
def change : Task → ℚ
  | holding q | stored q => -q.amount
  | adjusted _ how l _ | cleaned _ how l _ => how.change l.heldAmount
  | crediting _ _ amount _ => amount
  | _ => 0

-- How the hold key looks while a request's hold is open, and what has been read of it afterwards.
def Keyed : Task → Option Hold → Prop
  | fresh, key => key = none
  | holding q, key => q.setAt = none ∧ key = none
  | stored q, key | held q, key => key = q.setAt.map (holdKey q.userId q.amount)
  | looked q _ l, _ | adjusted q _ l _, _ | cleaned q _ l _, _ | resolved q _ l, _ =>
    (l.Found q → l.heldAmount = some q.amount) ∧ (¬l.Found q → l.heldAmount = none)
  | _, _ => True

variable {t : Task} {u v : UUID} {old new old' new' : Option CreditAccount}

theorem Writes.unique (h : t.Writes u old new) (h' : t.Writes v old' new') : u = v := by
  cases t <;> first | exact h.left.trans h'.left.symm | contradiction

theorem Writes.effect {a : CreditAccount} (h : t.Writes u (some a) new) :
    ∃ b, new = some b ∧ b.balanceUsd = a.balanceUsd + t.change := by
  cases t <;> try contradiction
  case holding | stored =>
    obtain ⟨-, c, hc, rfl⟩ := h
    obtain ⟨a', ha, -, rfl⟩ := holdCredit_ok hc
    cases ha
    exact ⟨_, rfl, sub_eq_add_neg ..⟩
  case adjusted q how l txs | cleaned q how l txs =>
    have ⟨b, txs', hb, hc, _⟩ := how.apply_some q.userId l.heldAmount a
    cases hb.symm.trans h.right
    exact ⟨b, rfl, hc⟩
  case crediting =>
    obtain ⟨-, id, a', b, ha, hb, rfl⟩ := h
    cases ha
    cases hb
    exact ⟨_, rfl, rfl⟩

end Task

abbrev State.Coherent (s : State) : Prop :=
  s.accounts.Coherent fun r => (s.tasks r).Writes

def State.Keyed (s : State) : Prop :=
  ∀ r t, s.tasks r = t → t.Keyed (s.holds r)

-- Whoever has a hold outstanding has an account.
def State.Opened (s : State) : Prop :=
  ∀ r u m, (s.tasks r).outstanding = some (u, m) → (s.accounts.rows u).isSome

structure Invariant (s : State) : Prop where
  coherent : s.Coherent
  keyed    : s.Keyed
  opened   : s.Opened

namespace State

variable {s : State} {r : RequestId} {u : UUID} {t : Task} {account : Option CreditAccount}

theorem Initial.invariant (h : s.Initial) : Invariant s where
  coherent := .of_quiet h.quiet
  keyed _ _ ht := by simp [← ht, h.fresh, h.empty, Task.Keyed]
  opened r := by simp [h.fresh, Task.outstanding]

theorem Coherent.writes (h : s.Coherent) (ht : s.tasks r = t)
    (hp : s.accounts.pending u = some (r, account)) :
    t.Writes u (s.accounts.rows u) account :=
  ht ▸ h hp

-- A task that has locked a row writes this row only.
theorem Coherent.eq_of_writes (h : s.Coherent) (hp : s.accounts.pending u = some (r, account))
    {v old new} (hw : (s.tasks r).Writes v old new) : v = u :=
  hw.unique (h hp)

theorem Coherent.signup (h : s.Coherent) (hf : s.accounts.Free u) : (s.signup u).Coherent := by
  intro v r account hp
  by_cases hv : v = u
  case pos => exact nomatch (hv ▸ hf : s.accounts.Free v).symm.trans hp
  case neg => simpa [State.signup, update_of_ne hv] using h hp

end State

open State

theorem Step.preserves_coherent (e : Step s s') (h : s.Coherent) : s'.Coherent := by
  cases e
  case tick                  => exact h
  case signup u new free     => exact h.signup free
  case refuse task _ _       => exact h.setTask (by simp [task, Task.Writes])
  case hold task _ covered   =>
    exact h.lockTask (by simp [task, Task.Writes]) ⟨rfl, _, covered, rfl⟩
  case set task              => exact h.setTask (by simp [task, Task.Writes])
  case commitHold locked     => exact h.commitTask (h.eq_of_writes locked)
  case get task              => exact h.setTask (by simp [task, Task.Writes])
  case skip task _           => exact h.setTask (by simp [task, Task.Writes])
  case select task _ _ applied =>
    exact h.lockTask (by simp [task, Task.Writes]) ⟨rfl, applied⟩
  case delete task           => exact h.setTask (by simp [task, Task.Writes])
  case commit locked         => exact h.commitTask (h.eq_of_writes locked)
  case topup task _ found credited =>
    exact h.lockTask (by simp [task, Task.Writes]) ⟨rfl, _, _, _, found, credited, rfl⟩
  case commitTopup locked    => exact h.commitTask (h.eq_of_writes locked)
  case abort locked          => exact h.rollbackTask (h.eq_of_writes locked)

namespace State.Keyed

variable {s s' : State} {r : RequestId} {t t' : Task}

-- A step changes the task and the key of one request only.
theorem of_update (h : s.Keyed) (ht : s.tasks r = t) (hs : s'.tasks = update s.tasks r t')
    (hk : t.Keyed (s.holds r) → t'.Keyed (s'.holds r))
    (hh : ∀ r' ≠ r, s'.holds r' = s.holds r' := by exact fun _ _ => rfl) : s'.Keyed := by
  intro r' t'' hr'
  rw [hs] at hr'
  by_cases hr : r' = r
  case pos =>
    subst hr
    rw [update_self] at hr'
    exact hr' ▸ hk (h r' t ht)
  case neg =>
    rw [update_of_ne hr] at hr'
    exact hh r' hr ▸ h r' t'' hr'

end State.Keyed

-- `GET` finds what the hold has written if the key has not expired yet.
theorem Task.Keyed.get {now : Time} (h : (held q).Keyed key) :
    (looked q how ⟨if ok then some now else none, getHoldAmount key now ok⟩).Keyed key' := by
  simp only [Keyed] at h ⊢
  cases ok <;> cases hq : q.setAt <;> simp [Lookup.Found, getHoldAmount, h, hq, holdKey]

theorem Step.preserves_keyed (e : Step s s') (h : s.Keyed) : s'.Keyed := by
  cases e
  case tick                 => exact h
  case signup               => exact h
  case refuse task _ _      => exact h.of_update task rfl (fun _ => trivial)
  case hold task _ _        => exact h.of_update task rfl (fun hk => ⟨rfl, hk⟩)
  case set q ok task =>
    refine h.of_update task rfl (fun hk => ?_) (fun r' hr => ?_)
    · cases ok <;> simp [hk.left, hk.right, Task.Keyed]
    · cases ok <;> simp [hr]
  case commitHold task _    => exact h.of_update task rfl id
  case get task             => exact h.of_update task rfl Task.Keyed.get
  case skip task _          => exact h.of_update task rfl id
  case select task _ _ _    => exact h.of_update task rfl id
  case delete ok task =>
    refine h.of_update task rfl id (fun r' hr => ?_)
    cases ok <;> simp [hr]
  case commit task _        => exact h.of_update task rfl id
  case topup task _ _ _     => exact h.of_update task rfl (fun _ => trivial)
  case commitTopup task _   => exact h.of_update task rfl (fun _ => trivial)
  case abort                => exact h.of_update rfl rfl (fun _ => trivial)

-- No step removes an account.
theorem Step.preserves_account (e : Step s s') (h : s.Coherent)
    (hu : (s.accounts.rows u).isSome) : (s'.accounts.rows u).isSome := by
  have hw : ∀ {r v account}, s.accounts.pending v = some (r, account) →
      (update s.accounts.rows v account u).isSome := by
    intro r v account locked
    by_cases hv : u = v
    case pos =>
      subst hv
      have ⟨a, ha⟩ := Option.isSome_iff_exists.mp hu
      obtain ⟨b, rfl, -⟩ := (ha ▸ h locked).effect
      simp
    case neg => simpa [hv] using hu
  cases e
  case signup v new free =>
    by_cases hv : u = v <;> simp [State.signup, hv, hu]
  case commitHold locked  => exact hw locked
  case commit locked      => exact hw locked
  case commitTopup locked => exact hw locked
  all_goals exact hu

theorem Step.preserves_opened (e : Step s s') (hc : s.Coherent) (h : s.Opened) : s'.Opened := by
  have hu : ∀ {r t}, s'.tasks = update s.tasks r t →
      (∀ u m, t.outstanding = some (u, m) → (s.tasks r).outstanding = some (u, m) ∨
        (s'.accounts.rows u).isSome) → s'.Opened := by
    intro r t hs ht r' u m ho
    rw [hs] at ho
    by_cases hr : r' = r
    case pos =>
      subst hr
      rw [update_self] at ho
      exact (ht u m ho).elim (fun ho => e.preserves_account hc (h _ _ _ ho)) id
    case neg =>
      rw [update_of_ne hr] at ho
      exact e.preserves_account hc (h _ _ _ ho)
  cases e
  case tick => exact h
  case signup u new free =>
    exact fun r v m ho => (Step.signup u new free).preserves_account hc (h r v m ho)
  case commitHold r q account task locked =>
    refine hu rfl (fun u m ho => .inr ?_)
    obtain ⟨-, a, -, rfl⟩ := hc.writes task locked
    cases ho
    simp
  case abort => exact hu rfl (fun _ _ ho => .inl ho)
  case get task | select task _ _ _ | delete task =>
    exact hu rfl (fun _ _ ho => .inl <| by simpa [task] using ho)
  case refuse | hold | set | skip | commit | topup | commitTopup =>
    exact hu rfl (fun _ _ ho => nomatch ho)

theorem Step.preserves_invariant (e : Step s s') (h : Invariant s) : Invariant s' where
  coherent := e.preserves_coherent h.coherent
  keyed    := e.preserves_keyed h.keyed
  opened   := e.preserves_opened h.coherent h.opened

namespace Invariant

variable {s : State} {r : RequestId} {u v : UUID} {account : Option CreditAccount}

theorem account_of_pending (h : Invariant s) (hp : s.accounts.pending u = some (r, account)) :
    ∃ a, s.accounts.rows u = some a := by
  cases ha : s.accounts.rows u
  case some a => exact ⟨a, rfl⟩
  case none =>
    have hw := h.coherent hp
    simp only [ha] at hw
    cases ht : s.tasks r <;> rw [ht] at hw <;> try contradiction
    case holding | stored => simp [Task.Writes, holdCredit] at hw
    case crediting        => simp [Task.Writes] at hw
    case adjusted | cleaned =>
      have ho := h.opened r _ _ (by rw [ht]; rfl)
      simp [← hw.left, ha] at ho

-- The balances after the commit of a transaction that has locked a row.
theorem balance_commit (h : Invariant s) (hp : s.accounts.pending u = some (r, account)) :
    (s.commit r u account txs t).balance v =
      s.balance v + if u = v then (s.tasks r).change else 0 := by
  have ⟨a, ha⟩ := h.account_of_pending hp
  obtain ⟨b, rfl, hb⟩ := (ha ▸ h.coherent hp).effect
  by_cases hv : v = u
  case pos =>
    subst hv
    simp [State.balance, ha, hb]
  case neg => simp [State.balance, hv, Ne.symm hv]

end Invariant
end Credit
