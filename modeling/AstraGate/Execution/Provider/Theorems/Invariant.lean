import AstraGate.Execution.Provider.Step
import AstraGate.Services.Theorems.ProviderBalance

open Function

namespace Providers

open PostProcess ProviderBalance

-- What the open transaction of a task has made of the row it has locked: post-processing charges
-- the row once, and an admin request flushes onto it what it has changed of what it had loaded.
def Task.Writes : Task → UUID → Option ProviderRow → Option ProviderRow → Prop
  | selected i p, id, old, new =>
    id = i ∧ ∃ row, old = some row ∧ p = row.toProvider ∧ new = some row
  | deducted i p, id, old, new | dropped i p, id, old, new =>
    id = i ∧ ∃ row c, old = some row ∧ 0 ≤ c.baseCost ∧ p = PostProcess.deducted c row ∧
      new = some p.store
  | checked i p, id, old, new | ready i p, id, old, new =>
    id = i ∧ ∃ row, old = some row ∧ new = some p.store ∧
      (p = row.toProvider ∨ ∃ c, 0 ≤ c.baseCost ∧
        p = (checkThresholds c.now (PostProcess.deducted c row)).provider)
  | flushed i request loaded p, id, old, new | cleared i request loaded p, id, old, new =>
    id = i ∧ p ≠ loaded ∧ ∃ row, old = some row ∧ request.apply loaded = .ok p ∧
      new = some (Admin.flush loaded p row)
  | _, _, _, _ => False

variable {s s' : State} {id : UUID} {row : Option ProviderRow}

theorem Task.Writes.unique {task : Task} (h : task.Writes i old new)
    (h' : task.Writes j old' new') : i = j := by
  cases task <;> first | exact h.left.trans h'.left.symm | contradiction

abbrev State.Coherent (s : State) : Prop :=
  s.providers.Coherent fun t => (s.tasks t).Writes

namespace State.Coherent

theorem writes (h : s.Coherent) (ht : s.tasks t = task)
    (hp : s.providers.pending id = some (t, row)) :
    task.Writes id (s.providers.rows id) row :=
  ht ▸ h hp

theorem eq_of_writes (h : s.Coherent) (hp : s.providers.pending id = some (t, row)) {i old new}
    (hw : (s.tasks t).Writes i old new) : i = id :=
  hw.unique (h hp)

end State.Coherent

theorem State.Initial.coherent (h : s.Initial) : s.Coherent :=
  .of_quiet h.quiet

theorem deduct_eq {c : Charge} {old : ProviderRow}
    (h : deductProviderBalance id c.baseCost c.requestId c.usageRecordId none
      (some old.toProvider) = .ok (p, log)) : 0 ≤ c.baseCost ∧ p = deducted c old := by
  unfold deductProviderBalance at h
  split at h
  case isTrue    => contradiction
  case isFalse n => cases h; exact ⟨not_lt.mp n, rfl⟩

theorem Step.preserves_coherent (e : Step s s') (h : s.Coherent) : s'.Coherent := by
  cases e
  case select task _ found =>
    exact h.lockTask (by simp [task, Task.Writes]) ⟨rfl, _, found, rfl, rfl⟩
  case skip task =>
    refine h.setTask (fun hw => ?_)
    rw [task] at hw
    have ⟨hi, old, ho, hp, hn⟩ := hw
    exact ⟨hi, old, ho, by rw [hn, hp, Provider.store_toProvider], .inl hp⟩
  case deduct c p p' log row task locked ok =>
    obtain ⟨-, old, ho, rfl, -⟩ := h.writes task locked
    have ⟨hc, hp⟩ := deduct_eq ok
    exact h.lockTask (h.eq_of_writes locked) ⟨rfl, old, c, ho, hc, hp, rfl⟩
  case drop task => exact h.setTask (by simp [task, Task.Writes])
  case check now p row task locked =>
    have ⟨_, old, c, ho, hc, hp, _⟩ := h.writes task locked
    have hp : (checkThresholds now p).provider =
        (checkThresholds now (deducted { c with now } old)).provider := by rw [hp]; rfl
    refine h.lockTask (h.eq_of_writes locked) ?_
    split
    · exact ⟨rfl, old, ho, rfl, .inr ⟨{ c with now }, hc, hp⟩⟩
    · exact ⟨rfl, old, ho, rfl, .inr ⟨{ c with now }, hc, hp⟩⟩
  case dropAgain task => exact h.setTask (by simp [task, Task.Writes])
  case commit locked => exact h.commitTask (h.eq_of_writes locked)
  case read task _ => exact h.setTask (by simp [task, Task.Writes])
  case refuse task _ => exact h.setTask (by simp [task, Task.Writes])
  case flush task ok changed _ found =>
    exact h.lockTask (by simp [task, Task.Writes]) ⟨rfl, changed, _, found, ok, rfl⟩
  case keep task _ => exact h.setTask (by simp [task, Task.Writes])
  case clear task => exact h.setTask (by simp [task, Task.Writes])
  case commitAdmin locked => exact h.commitTask (h.eq_of_writes locked)
  case finish task => exact h.setTask (by simp [task, Task.Writes])
  case abort locked => exact h.rollbackTask (h.eq_of_writes locked)
  case resolve task => exact h.setTask (by simp [task, Task.Writes])
  case hit task _ => exact h.setTask (by simp [task, Task.Writes])
  case miss task _ => exact h.setTask (by simp [task, Task.Writes])
  case load task _ => exact h.setTask (by simp [task, Task.Writes])
  case loadNone task _ => exact h.setTask (by simp [task, Task.Writes])
  case fill task => exact h.setTask (by simp [task, Task.Writes])
  case expire => exact h

end Providers
