import AstraGate.Services.PostProcess

namespace ProviderBalance

variable {now : Time} {p : Provider}

-- The status by the three bands of the balance.
def bandStatus (p : Provider) : Provider.Status :=
  if p.balanceUsd < p.hardStopThreshold then .hardStop
  else if p.balanceUsd < p.warningThreshold then .warning
  else if p.status = .warning then .normal
  else p.status

@[simp]
theorem checkThresholds_status : (checkThresholds now p).provider.status = bandStatus p := by
  simp only [checkThresholds, bandStatus]
  split_ifs <;> simp_all

@[simp]
theorem checkThresholds_hardStopActivatedAt :
    (checkThresholds now p).provider.hardStopActivatedAt =
      if p.balanceUsd < p.hardStopThreshold ∧ p.status ≠ .hardStop then some now
      else p.hardStopActivatedAt := by
  simp only [checkThresholds]
  split_ifs <;> simp_all

@[simp]
theorem checkThresholds_balanceUsd :
    (checkThresholds now p).provider.balanceUsd = p.balanceUsd := by
  simp only [checkThresholds]
  split_ifs <;> rfl

@[simp]
theorem checkThresholds_hardStopThreshold :
    (checkThresholds now p).provider.hardStopThreshold = p.hardStopThreshold := by
  simp only [checkThresholds]
  split_ifs <;> rfl

-- A hard stop ends by itself only in the warning band.
theorem bandStatus_of_hardStop (h : p.status = .hardStop)
    (hw : ¬(p.hardStopThreshold ≤ p.balanceUsd ∧ p.balanceUsd < p.warningThreshold)) :
    bandStatus p = .hardStop := by
  unfold bandStatus
  split_ifs with hb hs hn
  · rfl
  · exact absurd ⟨not_lt.mp hb, hs⟩ hw
  · exact absurd (h.symm.trans hn) (by decide)
  · exact h

-- The cache is dropped exactly if the status changes.
theorem cacheDirty_iff : (checkThresholds now p).cacheDirty ↔ bandStatus p ≠ p.status := by
  simp only [checkThresholds, bandStatus]
  cases hs : p.status <;> split_ifs <;> simp_all

namespace Walk

variable {w : Walk} {fuel : Nat} {d : ProviderRoutingDecision} {p : ProviderStatus}

theorem enter_eq_inl (h : w.enter fuel = .inl d) : d.provider = none := by
  cases fuel <;> simp only [Walk.enter] at h
  case zero => cases h; rfl
  case succ =>
    split at h
    case isTrue  => cases h; rfl
    case isFalse => contradiction

-- The loop only ever returns the provider whose status it has just checked, and neither one in hard
-- stop nor an inactive one.
theorem route_eq_inl (h : w.route fuel o = .inl d) (hd : d.provider = some p) :
    o = some p ∧ p.status ≠ .hardStop ∧ p.isActive ∧ d.isFallback = w.isFallback := by
  have hf : ∀ {f}, w.followTo fuel f ≠ .inl d :=
    fun he => nomatch (enter_eq_inl he).symm.trans hd
  unfold Walk.route at h
  split at h
  case h_1 => cases h; contradiction
  case h_2 status =>
    split at h
    case isTrue =>
      split at h
      case h_1 => exact absurd h hf
      case h_2 => cases h; contradiction
    case isFalse ha =>
      split at h
      case isTrue hs =>
        cases h
        cases hd
        exact ⟨rfl, by simpa [ProviderStatus.isHardStop] using hs, by simpa using ha, rfl⟩
      case isFalse =>
        split at h
        case h_1 => exact absurd h hf
        case h_2 => cases h; contradiction

-- A walk that is about to check a status: it has a fallback if and only if it has left the provider
-- that it started from, and it never gets back to it.
structure Entered (w : Walk) : Prop where
  visited  : w.originalId ∈ w.visited
  fallback : w.isFallback ↔ w.currentId ≠ w.originalId

theorem enter_eq_inr (h : w.enter fuel = .inr (w', fuel')) :
    w.currentId ∉ w.visited ∧ w' = { w with visited := w.currentId :: w.visited } ∧
      fuel = fuel' + 1 := by
  cases fuel <;> simp only [enter] at h
  case zero => contradiction
  case succ =>
    split at h
    case isTrue     => contradiction
    case isFalse hv => cases h; exact ⟨hv, rfl, rfl⟩

theorem entered_start {id : UUID} : Entered { start id with visited := [id] } where
  visited  := List.mem_singleton_self id
  fallback := by simp [start]

theorem Entered.followTo (h : w.Entered) (hf : w.followTo fuel f = .inr (w', fuel')) :
    w'.Entered ∧ w'.originalId = w.originalId ∧ fuel = fuel' + 1 := by
  have ⟨hv, he, hn⟩ := enter_eq_inr hf
  subst he
  have hne : f ≠ w.originalId := fun ho => hv (ho ▸ h.visited)
  exact ⟨⟨List.mem_cons_of_mem _ h.visited, by simp [hne]⟩, rfl, hn⟩

theorem route_eq_inr {r : Walk × Nat} (h : w.route fuel o = .inr r) :
    ∃ f, w.followTo fuel f = .inr r := by
  unfold Walk.route at h
  split at h
  case h_1 => contradiction
  case h_2 =>
    split at h
    case isTrue =>
      split at h
      case h_1 => exact ⟨_, h⟩
      case h_2 => contradiction
    case isFalse =>
      split at h
      case isTrue => contradiction
      case isFalse =>
        split at h
        case h_1 => exact ⟨_, h⟩
        case h_2 => contradiction

theorem Entered.route (h : w.Entered) (hr : w.route fuel o = .inr (w', fuel')) :
    w'.Entered ∧ w'.originalId = w.originalId ∧ fuel = fuel' + 1 := by
  have ⟨_, hf⟩ := route_eq_inr hr
  exact h.followTo hf

-- What the walk ends at has been found active and not in hard stop, and is a fallback if and only
-- if it is not what the walk started from.
theorem resolve_provider {check : UUID → Option ProviderStatus} (h : w.Entered)
    (hp : (w.resolve check fuel).provider = some p) :
    ∃ id, check id = some p ∧ p.status ≠ .hardStop ∧ p.isActive ∧
      ((w.resolve check fuel).isFallback ↔ id ≠ w.originalId) := by
  have hl : ∀ {w : Walk} {fuel d}, w.Entered → w.route fuel (check w.currentId) = .inl d →
      d.provider = some p → ∃ id, check id = some p ∧ p.status ≠ .hardStop ∧ p.isActive ∧
        (d.isFallback ↔ id ≠ w.originalId) := by
    intro w fuel d h hr hp
    have ⟨hc, hs, ha, hf⟩ := route_eq_inl hr hp
    exact ⟨w.currentId, hc, hs, ha, hf ▸ h.fallback⟩
  induction fuel generalizing w
  case zero =>
    cases hr : w.route 0 (check w.currentId) <;> simp only [resolve, hr] at hp ⊢
    case inl d => exact hl h hr hp
    case inr   => contradiction
  case succ fuel ih =>
    cases hr : w.route (fuel + 1) (check w.currentId) <;> simp only [resolve, hr] at hp ⊢
    case inl d  => exact hl h hr hp
    case inr w' =>
      have ⟨he, ho, _⟩ := h.route hr
      exact ho ▸ ih he hp

end Walk

theorem resolveProviderForRequest_provider {check : UUID → Option ProviderStatus} {id : UUID}
    {p : ProviderStatus} (h : (resolveProviderForRequest check id depth).provider = some p) :
    ∃ id', check id' = some p ∧ p.status ≠ .hardStop ∧ p.isActive ∧
      ((resolveProviderForRequest check id depth).isFallback ↔ id' ≠ id) :=
  Walk.resolve_provider Walk.entered_start h

end ProviderBalance

namespace PostProcess

open ProviderBalance

variable {id : UUID} {c : Charge} {row : ProviderRow}

-- The provider as the session holds it after the deduction.
def deducted (c : Charge) (row : ProviderRow) : Provider :=
  { row.toProvider with balanceUsd := row.balanceUsd - c.baseCost }

theorem chargeProvider_eq (h : 0 ≤ c.baseCost) :
    chargeProvider id c row = (checkThresholds c.now (deducted c row)).provider.store := by
  simp [chargeProvider, deductProviderBalance, deducted, not_lt.mpr h]

theorem chargeProvider_balanceUsd (h : 0 ≤ c.baseCost) :
    (chargeProvider id c row).balanceUsd = Numeric.quantize 4 (row.balanceUsd - c.baseCost) := by
  simp [chargeProvider_eq h, Provider.store, deducted]

end PostProcess
