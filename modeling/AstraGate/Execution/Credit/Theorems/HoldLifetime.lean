import AstraGate.Execution.Credit.Theorems.Invariant

open Function

namespace Credit

-- What a request's commits change the balance of its user by.
def Step.netEffect (r : RequestId) (e : Step s s') : ℚ :=
  match e with
  | commitHold r' q .. | commit r' q .. =>
    if r' = r then s'.balance q.userId - s.balance q.userId else 0
  | _ => 0

def Run.netEffect (r : RequestId) (es : Run s₁ s₂) : ℚ :=
  es.sum (Step.netEffect r)

-- What a request has changed the balance of its user by so far.
def Task.effect : Task → ℚ
  | held q | looked q .. | adjusted q .. | cleaned q .. => -q.amount
  | resolved q how l => -q.amount + how.change l.heldAmount
  | aborted t => t.effect
  | _ => 0

-- What a resolved request should have changed the balance of its user by.
def Resolution.due : Resolution → ℚ
  | settle actualCost _ => -actualCost
  | release             => 0

theorem Step.netEffect_eq (e : Step s s') (h : Invariant s) :
    e.netEffect r = (s'.tasks r).effect - (s.tasks r).effect := by
  have hu : ∀ {s s' : State} {r' t t'}, s.tasks r' = t → s'.tasks = update s.tasks r' t' →
      (s'.tasks r).effect - (s.tasks r).effect =
        if r' = r then t'.effect - t.effect else 0 := by
    intro s s' r' t t' ht hs
    by_cases hr : r' = r
    case pos => subst hr; simp [ht, hs]
    case neg => simp [hs, hr, Ne.symm hr]
  cases e
  case tick   => simp [netEffect]
  case signup => simp [netEffect, State.signup]
  case commitHold r' q account task locked =>
    rw [hu task rfl, netEffect, h.balance_commit locked, task]
    simp [Task.effect, Task.change]
  case commit r' q how l txs account task locked =>
    rw [hu task rfl, netEffect, h.balance_commit locked, task]
    simp [Task.effect, Task.change]
  case abort => rw [hu rfl rfl]; simp [netEffect, Task.effect]
  case skip task lost =>
    rw [hu task rfl]
    simp [netEffect, Task.effect, Resolution.change, lost]
  case refuse task _ _ | hold task _ _ | set task | get task | select task _ _ _ | delete task
    | topup task _ _ _ | commitTopup task _ =>
    rw [hu task rfl]
    simp [netEffect, Task.effect]

theorem Run.netEffect_eq (es : Run s₁ s₂) (h : Invariant s₁) :
    es.netEffect r = (s₂.tasks r).effect - (s₁.tasks r).effect :=
  Steps.sum_eq_sub (I := Invariant) (φ := fun s : State => (s.tasks r).effect) es
    (fun e => e.preserves_invariant) (fun e => e.netEffect_eq) h

-- The hold and the resolution of a request cancel out but for what is due exactly if the key of the
-- hold was found, unless nothing was held.
theorem netEffect_eq_due_iff_found (es : Run s₁ s₂) (h : s₁.Initial)
    (hr : s₂.tasks r = .resolved q how l) :
    es.netEffect r = how.due ↔ l.Found q ∨ q.amount = 0 := by
  have hk := (es.invariant (fun e => e.preserves_invariant) h.invariant).keyed _ _ hr
  rw [es.netEffect_eq h.invariant, hr, h.fresh r]
  by_cases hf : l.Found q
  case pos =>
    cases how <;> simp [Task.effect, Resolution.change, Resolution.due, hk.left hf, hf]
    ring
  case neg =>
    cases how <;> simp [Task.effect, Resolution.change, Resolution.due, hk.right hf, hf]

-- A user with $50 holds $10 for a request that fails after a minute.
theorem not_netEffect_eq_due_of_expired :
    ¬∀ (s₁ s₂ : State) (es : Run s₁ s₂) (r : RequestId) (q : Request) (how : Resolution)
      (l : Lookup), s₁.Initial → s₂.tasks r = .resolved q how l → 0 ≤ q.amount →
      es.netEffect r = how.due := by
  intro h
  let s := State.initial (fun _ => some ⟨50, none, none, none⟩) []
  let es : Run s _ :=
    .step (.hold 7 1 10 ⟨40, none, none, none⟩ rfl rfl (by decide +kernel)) <|
    .step (.set 7 ⟨1, 10, none⟩ true rfl) <|
    .step (.commitHold 7 _ _ rfl rfl) <|
    .step (.tick 60000) <|
    .step (.get 7 _ .release true rfl) <|
    .step (.skip 7 _ _ rfl (by decide +kernel)) .refl
  have hn := h _ _ es 7 _ .release _ State.initial_isInitial rfl (by decide +kernel)
  revert hn
  decide +kernel

theorem netEffect_eq_due_of_found :
    ∃ (s₁ s₂ : State) (es : Run s₁ s₂) (l : Lookup),
      s₂.tasks 7 = .resolved ⟨1, 10, some 0⟩ .release l ∧ es.netEffect 7 = 0 := by
  let s := State.initial (fun _ => some ⟨50, none, none, none⟩) []
  let es : Run s _ :=
    .step (.hold 7 1 10 ⟨40, none, none, none⟩ rfl rfl (by decide +kernel)) <|
    .step (.set 7 ⟨1, 10, none⟩ true rfl) <|
    .step (.commitHold 7 _ _ rfl rfl) <|
    .step (.tick 59999) <|
    .step (.get 7 _ .release true rfl) <|
    .step (.select 7 _ .release _ (some ⟨50, none, none, none⟩) [] rfl
      (by decide +kernel) rfl (by decide +kernel)) <|
    .step (.delete 7 _ .release _ [] true rfl) <|
    .step (.commit 7 _ .release _ [] _ rfl rfl) .refl
  have hr := netEffect_eq_due_iff_found (r := 7) es State.initial_isInitial rfl
  exact ⟨s, _, es, _, rfl, hr.mpr (.inl ⟨0, 59999, rfl, by decide +kernel, by decide⟩)⟩

end Credit
