import AstraGate.Execution.Credit.Theorems.Conservation

open Function

namespace Credit

-- The escrow after a step that changes one task.
theorem Step.escrow_eq (e : Step s s') (h : Invariant s) (hk : s.Kept)
    (hs : s'.tasks = update s.tasks r t) :
    s'.escrow = (s.escrow.assign r t.outstanding).deposit e.booking.1 e.booking.2 := by
  ext u : 2
  case funds =>
    have hb := e.balance_add_outstanding h hk u
    by_cases hu : u = e.booking.1
    case pos =>
      simpa [State.escrow, Escrow.assign, Escrow.deposit, booked, Escrow.share, ← hu] using hb
    case neg =>
      simpa [State.escrow, Escrow.assign, Escrow.deposit, booked, Escrow.share, hu, Ne.symm hu]
        using hb
  case held =>
    by_cases hr : u = r <;> simp [State.escrow, Escrow.assign, Escrow.deposit, hs, hr]

-- The steps that never give away more than they may: no top-up is negative, nothing negative is
-- held, and no request is settled for more than it holds.
def Step.Sound (e : Step s s') : Prop :=
  match e with
  | commit _ q (.settle actualCost _) .. => actualCost ≤ q.amount
  | commit _ q .release ..               => 0 ≤ q.amount
  | commitTopup _ _ _ amount ..          => 0 ≤ amount
  | _                                    => True

theorem Step.refines (e : Step s s') (h : Invariant s) (hk : s.Kept) (hs : e.Sound) :
    s'.escrow = s.escrow ∨ ∃ e' : Escrow.Step s.escrow s'.escrow, e'.Sound := by
  have he : ∀ {r t}, s'.tasks = update s.tasks r t →
      s'.escrow = (s.escrow.assign r t.outstanding).deposit e.booking.1 e.booking.2 :=
    e.escrow_eq h hk
  have hz : ∀ {r t}, s'.tasks = update s.tasks r t → e.booking.2 = 0 →
      s'.escrow = s.escrow.assign r t.outstanding :=
    fun ht hb => by rw [he ht, hb, Escrow.deposit_zero]
  have ha : ∀ {r : RequestId} {t : Task}, t.outstanding = (s.tasks r).outstanding →
      s.escrow.assign r t.outstanding = s.escrow :=
    fun ho => Escrow.assign_eq_self ho.symm
  cases e
  case tick => exact .inl rfl
  case signup u new free =>
    have hs := he (r := 0) (t := s.tasks 0) (update_eq_self 0 s.tasks).symm
    rw [hs, ha rfl]
    exact .inr ⟨.deposit u 1, zero_le_one⟩
  case commitHold r q account task locked =>
    have ⟨_, a, hh, _⟩ := h.coherent.writes task locked
    have ⟨b, hb, hc, _⟩ := holdCredit_ok hh
    have hn : s.escrow.held r = none := by simp [State.escrow, task]
    have hc : q.amount ≤ s.escrow.available q.userId := by
      simpa [State.available_escrow, State.balance, hb] using hc
    rw [hz rfl rfl]
    exact .inr ⟨.reserve r q.userId q.amount hn hc, trivial⟩
  case commit r q how l txs account task locked =>
    have hr : s.escrow.held r = some (q.userId, q.amount) := by simp [State.escrow, task]
    cases how
    case settle actualCost _ =>
      rw [he rfl]
      exact .inr ⟨.settle r q.userId q.amount actualCost hr, hs⟩
    case release =>
      rw [hz rfl rfl]
      exact .inr ⟨.release r q.userId q.amount hr, hs⟩
  case commitTopup r now u amount tx account task locked =>
    rw [he rfl, ha (by simp [task])]
    exact .inr ⟨.deposit u amount, hs⟩
  case skip r q l task lost =>
    have hr := hk r
    rw [task] at hr
    cases lost.symm.trans hr
  case abort => exact .inl <| (hz rfl rfl).trans (ha rfl)
  case refuse task _ _ | hold task _ _ | set task | get task | select task _ _ _ | delete task
    | topup task _ _ _ =>
    exact .inl <| (hz rfl rfl).trans (ha <| by simp [task])

theorem Run.refines (es : Run s₁ s₂) (h : s₁.Initial) (hk : es.All Step.Kept)
    (hs : es.All Step.Sound) : ∃ es' : Steps Escrow.Step s₁.escrow s₂.escrow, es'.All (·.Sound) :=
  es.simulation (I := fun s => Invariant s ∧ s.Kept)
    (fun e h hp =>
      ⟨e.preserves_invariant h.left, e.preserves_kept h.left.keyed h.right hp.left⟩)
    (fun e h hp => e.refines h.left h.right hp.right) ⟨h.invariant, h.kept⟩
    (Steps.all_and.mpr ⟨hk, hs⟩)

-- Balances that start out non-negative stay so.
theorem Run.balance_nonneg (es : Run s₁ s₂) (h : s₁.Initial) (hb : ∀ u, 0 ≤ s₁.balance u)
    (hk : es.All Step.Kept) (hs : es.All Step.Sound) (u : UUID) : 0 ≤ s₂.balance u := by
  have ⟨es', hs'⟩ := es.refines h hk hs
  have hv : s₂.escrow.Solvent := by
    refine Escrow.solvent_of_sound es' (fun v => ?_) hs'
    rw [State.available_escrow]
    exact hb v
  exact State.available_escrow ▸ hv u

end Credit
