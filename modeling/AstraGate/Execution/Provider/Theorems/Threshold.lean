import AstraGate.Execution.Provider.Theorems.Invariant

open Function

namespace Providers

open Admin PostProcess ProviderBalance

variable {s s' : State} {id : UUID} {row : ProviderRow} {loaded new : Provider}

-- A provider below its hard-stop threshold is not left open.
def Closed (row : ProviderRow) : Prop :=
  row.balanceUsd < row.hardStopThreshold → row.status = .hardStop

def State.Closed (s : State) : Prop :=
  ∀ id, ∀ row ∈ s.providers.rows id, Providers.Closed row

-- What an admin request that has loaded `loaded` needs of the row that it is committed on.
def KeepsClosed (request : Request) (loaded : Provider) (row : ProviderRow) : Prop :=
  match request with
  | .updateBalance body    =>
    row.status = .hardStop ∨ body.balanceUsd = loaded.balanceUsd ∨
      row.hardStopThreshold ≤ Numeric.quantize 4 body.balanceUsd
  | .updateThresholds body =>
    row.status = .hardStop ∨ body.hardStopThreshold = loaded.hardStopThreshold ∨
      Numeric.quantize 2 body.hardStopThreshold ≤ row.balanceUsd
  | .releaseHardStop       =>
    loaded.status = (if loaded.balanceUsd < loaded.warningThreshold then .warning else .normal) ∨
      row.hardStopThreshold ≤ row.balanceUsd

def Step.KeepsClosed (e : Step s s') : Prop :=
  match e with
  | commitAdmin _ id request loaded .. =>
    ∀ row ∈ s.providers.rows id, Providers.KeepsClosed request loaded row
  | _ => True

theorem closed_iff :
    Closed row ↔ row.status = .hardStop ∨ row.hardStopThreshold ≤ row.balanceUsd := by
  rw [Closed, ← not_lt, or_comm]
  exact Decidable.imp_iff_not_or

-- Whatever the row was before, the check that follows a deduction closes it.
theorem closed_store_checkThresholds {p : Provider} (h : Numeric.Fits 2 p.hardStopThreshold) :
    Closed (checkThresholds now p).provider.store := by
  rw [closed_iff]
  simp only [Provider.store, checkThresholds_status, checkThresholds_balanceUsd,
    checkThresholds_hardStopThreshold, Numeric.quantize_eq_self h]
  by_cases hb : p.balanceUsd < p.hardStopThreshold
  case pos => exact .inl (if_pos hb)
  case neg => exact .inr (Numeric.le_quantize_iff (h.of_le (by decide)) (not_lt.mp hb))

theorem closed_flush_iff {request : Request} (ok : request.apply loaded = .ok new)
    (h : Closed row) : Closed (flush loaded new row) ↔ KeepsClosed request loaded row := by
  have hb := Numeric.quantize_eq_self row.balance
  have hh := Numeric.quantize_eq_self row.hardStop
  rw [closed_iff] at h ⊢
  cases request <;> simp only [Request.apply, releaseHardStop, Except.ok.injEq] at ok
  case updateBalance body =>
    subst ok
    simp only [flush, Provider.store, flushColumn_self, KeepsClosed, hh]
    by_cases he : body.balanceUsd = loaded.balanceUsd
    case pos => simpa [flushColumn, he, hb] using h
    case neg => simp [flushColumn, he]
  case updateThresholds body =>
    subst ok
    simp only [flush, Provider.store, flushColumn_self, KeepsClosed, hb]
    by_cases he : body.hardStopThreshold = loaded.hardStopThreshold
    case pos => simpa [flushColumn, he, hh] using h
    case neg => simp [flushColumn, he]
  case releaseHardStop =>
    split at ok
    case isTrue  => contradiction
    case isFalse =>
      cases ok
      simp only [flush, Provider.store, flushColumn_self, KeepsClosed, hb, hh]
      generalize hs : (if loaded.balanceUsd < loaded.warningThreshold then
        Provider.Status.warning else .normal) = status
      have hn : status ≠ .hardStop := by rw [← hs]; split <;> simp
      by_cases he : status = loaded.status
      case pos => simpa [flushColumn, he] using h
      case neg => simp [flushColumn, he, hn, Ne.symm he]

theorem State.Closed.commit_iff {new : Option ProviderRow} (h : s.Closed) :
    (s.commit t id new).Closed ↔ ∀ row ∈ new, Providers.Closed row := by
  constructor
  case mp => exact fun hc row hr => hc id row (by simpa using hr)
  case mpr =>
    intro hn i row hr
    by_cases hi : i = id
    case pos => exact hn row (by simpa [hi] using hr)
    case neg => exact h i row (by simpa [hi] using hr)

-- Post-processing either leaves the row alone or checks it after the deduction.
theorem closed_of_ready {old new : Option ProviderRow} (h : (Task.ready i p).Writes id old new)
    (hc : ∀ row ∈ old, Closed row) : ∀ row ∈ new, Closed row := by
  have ⟨_, row, ho, hn, hp⟩ := h
  rintro _ rfl
  rw [Option.some.inj hn]
  cases hp
  case inl he => rw [he, Provider.store_toProvider]; exact hc row ho
  case inr he =>
    obtain ⟨c, -, rfl⟩ := he
    exact closed_store_checkThresholds row.hardStop

theorem Step.closed_iff (e : Step s s') (hc : s.Coherent) (h : s.Closed) :
    s'.Closed ↔ e.KeepsClosed := by
  cases e
  case commit id p row task locked =>
    exact iff_of_true (h.commit_iff.mpr <| closed_of_ready (hc.writes task locked) (h id)) trivial
  case commitAdmin id request loaded new row task locked =>
    obtain ⟨-, -, old, ho, ok, rfl⟩ := hc.writes task locked
    rw [h.commit_iff, KeepsClosed, ho]
    simpa using closed_flush_iff ok (h id old ho)
  all_goals exact iff_of_true h trivial

-- In every run from a state without open providers, no committed state has one exactly if every
-- admin request is committed on a row that it keeps closed.
theorem visits_closed_iff (es : Run s s') (hi : s.Initial) (h : s.Closed) :
    es.Visits State.Closed ↔ es.All Step.KeepsClosed := by
  refine es.all_iff_all (I := fun s => s.Coherent ∧ s.Closed) ?_ ?_ ⟨hi.coherent, h⟩
  case refine_1 => exact fun e hs he => ⟨e.preserves_coherent hs.left, he⟩
  case refine_2 => exact fun e hs => e.closed_iff hs.left hs.right

-- The balance of an open provider is set to $1 by hand, which is below its hard-stop threshold.
theorem not_visits_closed_of_updateBalance :
    ¬∀ (s s' : State) (es : Run s s'), s.Initial → s.Closed → es.Visits State.Closed := by
  intro h
  let row := Provider.store ⟨"openai", 50, 10, 2, .normal, none, none, none, true⟩
  let s : State := ⟨⟨fun _ => some row, fun _ => none⟩, fun _ => none, fun _ => .fresh⟩
  let request := Request.updateBalance ⟨1, none, by decide +kernel⟩
  let es : Run s _ :=
    .step (.read 0 1 request row rfl rfl) <|
    .step (.flush 0 1 request row.toProvider _ row rfl rfl (by decide +kernel) rfl rfl) <|
    .step (.clear 0 1 request row.toProvider _ rfl) <|
    .step (.commitAdmin 0 1 request row.toProvider _ _ rfl rfl) .refl
  have hc : s.Closed := fun _ r hr => Option.some.inj hr ▸ closed_iff.mpr (.inr (by decide +kernel))
  have hv := h s _ es ⟨fun _ => rfl, fun _ => rfl⟩ hc
  have hr := hv.right.right.right.left 1 _ rfl
  exact absurd (hr (by decide +kernel)) (by decide +kernel)

-- The thresholds are raised while a request that has cost $20 is on its way.
theorem visits_closed_of_covered_threshold :
    ∃ (s s' : State) (es : Run s s'), s.Closed ∧ es.Visits State.Closed := by
  let row := Provider.store ⟨"openai", 50, 10, 2, .normal, none, none, none, true⟩
  let s : State := ⟨⟨fun _ => some row, fun _ => none⟩, fun _ => none, fun _ => .fresh⟩
  let request := Request.updateThresholds ⟨40, 30, by decide +kernel⟩
  let c : Charge := ⟨0, "r", 1, 20⟩
  let es : Run s _ :=
    .step (.read 0 1 request row rfl rfl) <|
    .step (.select 1 1 row rfl rfl rfl) <|
    .step (.deduct 1 1 c row.toProvider _ _ _ rfl rfl rfl) <|
    .step (.drop 1 1 _ rfl) <|
    .step (.check 1 1 0 _ _ rfl rfl) <|
    .step (.commit 1 1 _ _ (if_neg (by decide +kernel)) rfl) <|
    .step (.flush 0 1 request row.toProvider _ _ rfl rfl (by decide +kernel) rfl rfl) <|
    .step (.clear 0 1 request row.toProvider _ rfl) <|
    .step (.commitAdmin 0 1 request row.toProvider _ _ rfl rfl) .refl
  have hc : s.Closed := fun _ r hr => Option.some.inj hr ▸ closed_iff.mpr (.inr (by decide +kernel))
  refine ⟨s, _, es, hc, (visits_closed_iff es ⟨fun _ => rfl, fun _ => rfl⟩ hc).mpr ?_⟩
  refine ⟨trivial, trivial, trivial, trivial, trivial, trivial, trivial, trivial, ?_, trivial⟩
  exact fun _ hr => Option.some.inj hr ▸ .inr (.inr (by decide +kernel))

end Providers
