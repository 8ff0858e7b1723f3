import AstraGate.Models.Provider

namespace Admin

structure ProviderBalanceRequest where
  balanceUsd : ℚ
  note       : Option String
  valid      : 0 ≤ balanceUsd

structure ProviderThresholdsRequest where
  warningThreshold  : ℚ
  hardStopThreshold : ℚ
  valid             : 1 ≤ warningThreshold ∧ 1 ≤ hardStopThreshold

-- The requests that change a provider, with their validated bodies.
inductive Request
  | updateBalance (body : ProviderBalanceRequest)
  | updateThresholds (body : ProviderThresholdsRequest)
  | releaseHardStop

-- The refusal of a release, which names the balance and the threshold that it is still below.
structure CannotReleaseHardStop where
  balanceUsd        : ℚ
  hardStopThreshold : ℚ
deriving DecidableEq

def releaseHardStop (p : Provider) : Except CannotReleaseHardStop Provider :=
  if p.balanceUsd < p.hardStopThreshold then
    .error { balanceUsd := p.balanceUsd, hardStopThreshold := p.hardStopThreshold }
  else
    .ok { p with
      status              := if p.balanceUsd < p.warningThreshold then .warning else .normal
      hardStopActivatedAt := none }

-- What a request makes of the provider that its session has loaded.
def Request.apply : Request → Provider → Except CannotReleaseHardStop Provider
  | updateBalance body, p    => .ok { p with balanceUsd := body.balanceUsd }
  | updateThresholds body, p =>
    .ok { p with
      warningThreshold  := body.warningThreshold
      hardStopThreshold := body.hardStopThreshold }
  | releaseHardStop, p       => Admin.releaseHardStop p

-- The refusal of a request for a provider that does not exist.
structure ProviderNotFound where
  providerId : UUID
deriving DecidableEq

-- What `update_balance` makes of the provider that its session has loaded, and the row it inserts
-- into `provider_balance_log`. The texts that `str` makes of decimals are left open, since they
-- have zeros at their ends that rational numbers do not have.
def updateBalance (str : ℚ → String) (providerId : UUID) (body : ProviderBalanceRequest)
    (provider : Option Provider) : Except ProviderNotFound (Provider × ProviderBalanceLog) :=
  match provider with
  | none          => .error { providerId }
  | some provider =>
    let balanceBefore := provider.balanceUsd
    let balanceAfter := body.balanceUsd
    let amountChange := balanceAfter - balanceBefore
    let note := body.note.filter (· ≠ "") |>.getD
      ("Manual balance update from " ++ str balanceBefore ++ " to " ++ str balanceAfter)
    let log := {
      providerId, changeType := "manual_update", amountUsd := amountChange, balanceBefore,
      balanceAfter, usageRecordId := none, note }
    .ok ({ provider with balanceUsd := balanceAfter }, log)

-- The value of a column after a flush: only what differs from the loaded value is written.
def flushColumn [DecidableEq α] (loaded new committed : α) : α :=
  if new = loaded then committed else new

-- The row after the flush of `new` in a session that has loaded `loaded`.
def flush (loaded new : Provider) (row : ProviderRow) : ProviderRow :=
  Provider.store {
    name                := row.name
    balanceUsd          := flushColumn loaded.balanceUsd new.balanceUsd row.balanceUsd
    warningThreshold    :=
      flushColumn loaded.warningThreshold new.warningThreshold row.warningThreshold
    hardStopThreshold   :=
      flushColumn loaded.hardStopThreshold new.hardStopThreshold row.hardStopThreshold
    status              := flushColumn loaded.status new.status row.status
    fallbackProviderId  := row.fallbackProviderId
    lastWarningAlertAt  := row.lastWarningAlertAt
    hardStopActivatedAt :=
      flushColumn loaded.hardStopActivatedAt new.hardStopActivatedAt row.hardStopActivatedAt
    isActive            := row.isActive }

-- A request whose session is alone reads, flushes and commits the same row.
def Request.commit (request : Request) (row : ProviderRow) :
    Except CannotReleaseHardStop ProviderRow :=
  request.apply row.toProvider |>.map Provider.store

@[simp]
theorem flushColumn_self [DecidableEq α] (loaded committed : α) :
    flushColumn loaded loaded committed = committed :=
  if_pos rfl

theorem flush_status {request : Request} (h : request.apply loaded = .ok new)
    (hr : request ≠ .releaseHardStop) : (flush loaded new row).status = row.status := by
  cases request <;> simp only [Request.apply, Except.ok.injEq] at h
  case updateBalance    => subst h; simp [flush, Provider.store]
  case updateThresholds => subst h; simp [flush, Provider.store]
  case releaseHardStop  => contradiction

-- No request puts a provider into hard stop.
theorem hardStop_of_flush {request : Request} (h : request.apply loaded = .ok new)
    (hs : (flush loaded new row).status = .hardStop) : row.status = .hardStop := by
  by_cases hr : request = .releaseHardStop
  case neg => exact flush_status h hr ▸ hs
  case pos =>
    subst hr
    simp only [Request.apply, releaseHardStop] at h
    split at h
    case isTrue  => contradiction
    case isFalse =>
      cases h
      simp only [flush, Provider.store, flushColumn] at hs
      split_ifs at hs
      all_goals exact hs

end Admin
