import AstraGate.Api.Admin
import AstraGate.Lib.Steps
import AstraGate.Services.Theorems.ProviderBalance

-- The operations that change the row of a provider, each of them run from start to end on its own.
inductive Operation (row : ProviderRow) : ProviderRow → Type
  | postProcess (id : UUID) (c : PostProcess.Charge) (valid : 0 ≤ c.baseCost) :
    Operation row (PostProcess.chargeProvider id c row)
  | admin (request : Admin.Request) (row' : ProviderRow) (ok : request.commit row = .ok row') :
    Operation row row'

namespace Operation

open Admin PostProcess ProviderBalance

variable {row row' : ProviderRow}

-- A hard stop stays in force until it is released.
def Sticky (e : Operation row row') : Prop :=
  match e with
  | admin .releaseHardStop _ _ => True
  | _                          => row.status = .hardStop → row'.status = .hardStop

-- A hard stop is in force exactly if the time of its activation is set.
def Consistent (row : ProviderRow) : Prop :=
  row.status = .hardStop ↔ row.hardStopActivatedAt.isSome

instance : Decidable (Consistent row) :=
  inferInstanceAs (Decidable (_ ↔ _))

-- A charge to a provider in hard stop that leaves its balance in the warning band.
def Relapse (e : Operation row row') : Prop :=
  match e with
  | postProcess _ c _ =>
    row.status = .hardStop ∧ row.hardStopThreshold ≤ row.balanceUsd - c.baseCost ∧
      row.balanceUsd - c.baseCost < row.warningThreshold
  | admin ..          => False

theorem sticky_iff (e : Operation row row') : e.Sticky ↔ ¬e.Relapse := by
  cases e
  case postProcess id c valid =>
    simp only [Sticky, Relapse, chargeProvider_eq valid, Provider.store, checkThresholds_status,
      bandStatus, deducted]
    by_cases hs : row.status = .hardStop
    case neg => simp [hs]
    case pos =>
      by_cases hb : row.balanceUsd - c.baseCost < row.hardStopThreshold
      case pos => simp [hb, not_le.mpr hb]
      case neg =>
        by_cases hw : row.balanceUsd - c.baseCost < row.warningThreshold
        case pos => simp [hb, hs, hw, not_lt.mp hb]
        case neg => simp [hb, hs, hw]
  case admin request ok =>
    refine iff_of_true ?_ id
    cases request
    case releaseHardStop => trivial
    all_goals
      cases ok
      exact id

theorem consistent_of_no_relapse (e : Operation row row') (h : Consistent row) (hr : ¬e.Relapse) :
    Consistent row' := by
  cases e
  case postProcess id c valid =>
    simp only [Relapse, not_and, not_lt] at hr
    simp only [Consistent, chargeProvider_eq valid, Provider.store, checkThresholds_status,
      checkThresholds_hardStopActivatedAt, bandStatus, deducted] at h ⊢
    by_cases hb : row.balanceUsd - c.baseCost < row.hardStopThreshold
    case pos => by_cases hs : row.status = .hardStop <;> simp [hb, hs, ← h]
    case neg =>
      have hb' := not_lt.mp hb
      by_cases hw : row.balanceUsd - c.baseCost < row.warningThreshold
      case pos =>
        have hs : row.status ≠ .hardStop := fun hs => (hr hs hb').not_gt hw
        simp [hb, hw, ← h, hs]
      case neg => by_cases hs : row.status = .warning <;> simp [hb, hw, hs, ← h]
  case admin request ok =>
    cases request <;> simp only [Request.commit, Request.apply, releaseHardStop] at ok
    case updateBalance    => cases ok; exact h
    case updateThresholds => cases ok; exact h
    case releaseHardStop  =>
      split at ok
      case isTrue => contradiction
      case isFalse =>
        cases ok
        simp only [Consistent, Provider.store]
        split <;> simp

-- Hard stops stay in force exactly as long as no charge relapses into the warning band. If the
-- first row is consistent, then so are all others as long.
theorem sticky_iff_no_relapse (es : Steps Operation row row') :
    (es.All Sticky ↔ es.All (¬·.Relapse)) ∧
      (Consistent row → ((es.All Sticky ∧ es.Visits Consistent) ↔ es.All (¬·.Relapse))) := by
  constructor
  case left =>
    exact es.all_iff_all (I := fun _ => True) (fun _ _ _ => trivial) (fun e _ => e.sticky_iff)
      trivial
  case right =>
    intro h
    rw [Steps.Visits, ← Steps.all_and]
    refine es.all_iff_all (fun e _ he => he.right) (fun e h => ?_) h
    exact ⟨fun he => e.sticky_iff.mp he.left,
      fun hr => ⟨e.sticky_iff.mpr hr, e.consistent_of_no_relapse h hr⟩⟩

-- A provider in hard stop is topped up to $5 by hand, which is below its warning threshold, and
-- serves one more request.
theorem not_sticky_of_relapse :
    ¬∀ (row row' : ProviderRow) (es : Steps Operation row row'), Consistent row →
      es.All Sticky ∧ es.Visits Consistent := by
  intro h
  let row := Provider.store ⟨"openai", 1, 10, 2, .hardStop, none, none, some 0, true⟩
  let es : Steps Operation row _ :=
    .step (.admin (.updateBalance ⟨5, none, by decide +kernel⟩) _ rfl) <|
    .step (.postProcess 1 ⟨7, "r", 1, 1/100⟩ (by decide +kernel)) .refl
  have hs := (h row _ es (by decide +kernel)).left.right.left
  exact absurd (hs rfl) (by decide +kernel)

theorem sticky_of_recovered_balance :
    ∃ (row row' : ProviderRow) (es : Steps Operation row row'),
      row.status = .hardStop ∧ es.All Sticky ∧ es.Visits Consistent := by
  let row := Provider.store ⟨"openai", 1, 10, 2, .hardStop, none, none, some 0, true⟩
  let es : Steps Operation row _ :=
    .step (.admin (.updateBalance ⟨50, none, by decide +kernel⟩) _ rfl) <|
    .step (.postProcess 1 ⟨7, "r", 1, 1/100⟩ (by decide +kernel)) .refl
  have hr : es.All (¬·.Relapse) := ⟨id, by unfold Relapse; decide +kernel, trivial⟩
  exact ⟨row, _, es, rfl, ((sticky_iff_no_relapse es).right (by decide +kernel)).mpr hr⟩

end Operation
