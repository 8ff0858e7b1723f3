import AstraGate.Execution.Alert.Step
import AstraGate.Services.Theorems.ProviderBalance

namespace ProviderBalance

variable {now : Time} {p : Provider}

@[simp]
theorem shouldSendWarning_status :
    shouldSendWarning now { p with status := status } = shouldSendWarning now p :=
  rfl

theorem not_shouldSendWarning_of_now (h : p.lastWarningAlertAt = some now) :
    shouldSendWarning now p = false := by
  simp [shouldSendWarning, h, warningAlertCooldown]

theorem le_of_shouldSendWarning (h : shouldSendWarning now p)
    (hl : p.lastWarningAlertAt = some last) : last + warningAlertCooldown ≤ now := by
  simpa [shouldSendWarning, hl] using h

theorem checkThresholds_alerts :
    (checkThresholds now p).alerts =
      if p.balanceUsd < p.hardStopThreshold then
        if p.status ≠ .hardStop then [.hardStop] else []
      else if p.balanceUsd < p.warningThreshold ∧ shouldSendWarning now p then [.warning]
      else [] := by
  simp only [checkThresholds]
  split_ifs <;> simp_all

theorem checkThresholds_newStatus :
    (checkThresholds now p).newStatus = (checkThresholds now p).provider.status := by
  simp only [checkThresholds]
  split_ifs <;> simp_all

theorem checkThresholds_lastWarningAlertAt :
    (checkThresholds now p).provider.lastWarningAlertAt =
      if .warning ∈ (checkThresholds now p).alerts then some now else p.lastWarningAlertAt := by
  simp only [checkThresholds]
  split_ifs <;> simp_all

theorem warning_mem_alerts_iff :
    .warning ∈ (checkThresholds now p).alerts ↔
      p.hardStopThreshold ≤ p.balanceUsd ∧ p.balanceUsd < p.warningThreshold ∧
        shouldSendWarning now p := by
  rw [checkThresholds_alerts]
  split_ifs with hb hs hw
  · simp [hb]
  · simp [hb]
  · simp [not_lt.mp hb, hw]
  · simpa [not_lt.mp hb] using hw

theorem hardStop_mem_alerts_iff :
    .hardStop ∈ (checkThresholds now p).alerts ↔
      p.status ≠ .hardStop ∧ (checkThresholds now p).provider.status = .hardStop := by
  rw [checkThresholds_alerts, checkThresholds_status, bandStatus]
  split_ifs <;> simp_all

-- A second check at the same time finds nothing left to do.
theorem checkThresholds_checkThresholds :
    checkThresholds now (checkThresholds now p).provider =
      { checkThresholds now p with alerts := [], cacheDirty := false } := by
  by_cases hb : p.balanceUsd < p.hardStopThreshold
  case pos => by_cases hs : p.status = .hardStop <;> simp [checkThresholds, hb, hs]
  case neg =>
    by_cases hw : p.balanceUsd < p.warningThreshold
    case pos =>
      by_cases ha : shouldSendWarning now p
      case pos => simp [checkThresholds, hb, hw, ha, not_shouldSendWarning_of_now]
      case neg => simp [checkThresholds, hb, hw, ha]
    case neg => by_cases hs : p.status = .warning <;> simp [checkThresholds, hb, hw, hs]

-- What is asked of each call of `check_thresholds`, and of what it makes of the provider.
structure Disciplined (now : Time) (p : Provider) (c : Checked) : Prop where
  single   : c.alerts.length ≤ 1
  hardStop : .hardStop ∈ c.alerts ↔ p.status ≠ .hardStop ∧ c.provider.status = .hardStop
  warning  : .warning ∈ c.alerts →
    p.hardStopThreshold ≤ p.balanceUsd ∧ p.balanceUsd < p.warningThreshold
  returned : c.newStatus = c.provider.status
  repeated : checkThresholds now c.provider = { c with alerts := [], cacheDirty := false }

theorem disciplined_checkThresholds : Disciplined now p (checkThresholds now p) where
  single   := by rw [checkThresholds_alerts]; split_ifs <;> simp
  hardStop := hardStop_mem_alerts_iff
  warning  := fun h => (warning_mem_alerts_iff.mp h).imp_right And.left
  returned := checkThresholds_newStatus
  repeated := checkThresholds_checkThresholds

end ProviderBalance

namespace Alert

open ProviderBalance

variable {s s' : State}

def Step.Disciplined : Step s s' → Prop
  | check => ProviderBalance.Disciplined s.now s.provider s.checked
  | _     => True

-- The second one of two times is at least one cooldown after the first one.
def Apart (t t' : Time) : Prop :=
  t + warningAlertCooldown ≤ t'

theorem Apart.trans (h : Apart t₁ t₂) (h' : Apart t₂ t₃) : Apart t₁ t₃ :=
  (Nat.le_add_right ..).trans ((Nat.add_le_add_right h _).trans h')

theorem Step.keeps_discipline (e : Step s s') : e.Disciplined := by
  cases e
  case check => exact disciplined_checkThresholds
  all_goals trivial

-- Only a warning changes the time of the last one.
theorem Step.lastWarningAlertAt (e : Step s s') :
    s'.provider.lastWarningAlertAt = e.warning?.or s.provider.lastWarningAlertAt := by
  cases e
  case check =>
    simp only [State.checked, checkThresholds_lastWarningAlertAt, warning?]
    split_ifs with h <;> simp [h]
  case release new ok =>
    unfold Admin.releaseHardStop at ok
    split at ok
    case isTrue  => contradiction
    case isFalse => cases ok; rfl
  all_goals rfl

theorem Step.apart_of_warning? (e : Step s s') (hw : e.warning? = some t)
    (hl : s.provider.lastWarningAlertAt = some last) : Apart last t := by
  cases e <;> simp only [warning?] at hw
  case check =>
    split_ifs at hw with ha
    cases hw
    exact le_of_shouldSendWarning (warning_mem_alerts_iff.mp ha).right.right hl
  all_goals contradiction

-- The last warning before a run counts as well.
theorem pairwise_apart (es : Run s s') :
    (s.provider.lastWarningAlertAt.toList ++ es.collect Step.warning?).Pairwise Apart := by
  induction es
  case refl => cases s.provider.lastWarningAlertAt <;> simp [Steps.collect]
  case step s s₁ s' e es ih =>
    rw [e.lastWarningAlertAt] at ih
    rw [Steps.collect]
    cases hw : e.warning? <;> rw [hw] at ih
    case none   => exact ih
    case some t =>
      cases hl : s.provider.lastWarningAlertAt
      case none      => exact ih
      case some last =>
        have ha := e.apart_of_warning? hw hl
        refine List.pairwise_cons.mpr ⟨List.forall_mem_cons.mpr ⟨ha, fun t' ht => ?_⟩, ih⟩
        exact ha.trans ((List.pairwise_cons.mp ih).left t' ht)

-- Alerts in all runs: each check is disciplined, and warnings are one cooldown apart at least.
theorem disciplined (es : Run s s') :
    es.All Step.Disciplined ∧ (es.collect Step.warning?).Pairwise Apart := by
  have hd : es.All Step.Disciplined :=
    es.all_of_preserved (I := fun _ => True) (fun _ h => h) (fun e _ => e.keeps_discipline) trivial
  exact ⟨hd, (List.pairwise_append.mp (pairwise_apart es)).right.left⟩

end Alert
