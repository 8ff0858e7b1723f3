import AstraGate.Lib.Traced
import AstraGate.Models.Provider

namespace ProviderBalance

-- `WARNING_ALERT_COOLDOWN`
def warningAlertCooldown : Time :=
  3600000

structure ProviderStatus where
  providerId         : UUID
  name               : String
  status             : Provider.Status
  balanceUsd         : ℚ
  warningThreshold   : ℚ
  hardStopThreshold  : ℚ
  fallbackProviderId : Option UUID
  isActive           : Bool
deriving DecidableEq

def ProviderStatus.isHardStop (s : ProviderStatus) : Bool :=
  s.status = .hardStop

-- `_provider_to_status`
def providerToStatus (id : UUID) (p : Provider) : ProviderStatus where
  providerId         := id
  name               := p.name
  status             := p.status
  balanceUsd         := p.balanceUsd
  warningThreshold   := p.warningThreshold
  hardStopThreshold  := p.hardStopThreshold
  fallbackProviderId := p.fallbackProviderId
  isActive           := p.isActive

inductive Reason
  | ok
  | fallback
  | hardStopNoFallback
  | unknownProvider
  | inactive
deriving DecidableEq

structure ProviderRoutingDecision where
  provider           : Option ProviderStatus
  isFallback         : Bool
  reason             : Reason
  originalProviderId : UUID
deriving DecidableEq

-- The variables of the loop in `resolve_provider_for_request`.
structure Walk where
  originalId : UUID
  currentId  : UUID
  visited    : List UUID
  isFallback : Bool
deriving DecidableEq

namespace Walk

def start (providerId : UUID) : Walk where
  originalId := providerId
  currentId  := providerId
  visited    := []
  isFallback := false

def decide (w : Walk) (provider : Option ProviderStatus) (reason : Reason) :
    ProviderRoutingDecision where
  provider           := provider
  isFallback         := w.isFallback
  reason             := reason
  originalProviderId := w.originalId

-- The head of the loop with `fuel` iterations left: either the walk ends without a provider, or the
-- status of the current provider is to be checked.
def enter (w : Walk) : (fuel : Nat) → ProviderRoutingDecision ⊕ Walk × Nat
  | 0        => .inl (w.decide none .hardStopNoFallback)
  | fuel + 1 =>
    if w.currentId ∈ w.visited then .inl (w.decide none .hardStopNoFallback)
    else .inr ({ w with visited := w.currentId :: w.visited }, fuel)

def followTo (w : Walk) (fuel : Nat) (fallbackProviderId : UUID) :
    ProviderRoutingDecision ⊕ Walk × Nat :=
  { w with currentId := fallbackProviderId, isFallback := true }.enter fuel

-- The rest of the loop's body once the status has been checked.
def route (w : Walk) (fuel : Nat) :
    Option ProviderStatus → ProviderRoutingDecision ⊕ Walk × Nat
  | none        => .inl (w.decide none .unknownProvider)
  | some status =>
    if !status.isActive then
      match status.fallbackProviderId with
      | some fallback => w.followTo fuel fallback
      | none          => .inl (w.decide none .inactive)
    else if !status.isHardStop then
      .inl (w.decide status (if w.isFallback then .fallback else .ok))
    else
      match status.fallbackProviderId with
      | some fallback => w.followTo fuel fallback
      | none          => .inl (w.decide none .hardStopNoFallback)

-- The loop from where the status of the current provider is to be checked, with `fuel` iterations
-- left after this one, and `check` for `check_provider_status`.
def resolve (check : UUID → Option ProviderStatus) : Walk → (fuel : Nat) → ProviderRoutingDecision
  | w, 0 =>
    match w.route 0 (check w.currentId) with
    | .inl d      => d
    | .inr (w, _) => w.decide none .hardStopNoFallback
  | w, fuel + 1 =>
    match w.route (fuel + 1) (check w.currentId) with
    | .inl d      => d
    | .inr (w, _) => resolve check w fuel

end Walk

def resolveProviderForRequest (check : UUID → Option ProviderStatus) (providerId : UUID)
    (maxFallbackDepth : Nat) : ProviderRoutingDecision :=
  match (Walk.start providerId).enter (maxFallbackDepth + 1) with
  | .inl d         => d
  | .inr (w, fuel) => w.resolve check fuel

-- The same loop as a program that calls `check_provider_status`, once for each provider in its
-- trace.
abbrev Routing :=
  Traced UUID Empty

def checkProviderStatus (check : UUID → Option ProviderStatus) (providerId : UUID) :
    Routing (Option ProviderStatus) := do
  Traced.emit providerId
  return check providerId

def Walk.resolveTraced (check : UUID → Option ProviderStatus) :
    Walk → (fuel : Nat) → Routing ProviderRoutingDecision
  | w, 0 => do
    match w.route 0 (← checkProviderStatus check w.currentId) with
    | .inl d      => return d
    | .inr (w, _) => return w.decide none .hardStopNoFallback
  | w, fuel + 1 => do
    match w.route (fuel + 1) (← checkProviderStatus check w.currentId) with
    | .inl d      => return d
    | .inr (w, _) => resolveTraced check w fuel

def resolveProviderForRequestTraced (check : UUID → Option ProviderStatus) (providerId : UUID)
    (maxFallbackDepth : Nat) : Routing ProviderRoutingDecision :=
  match (Walk.start providerId).enter (maxFallbackDepth + 1) with
  | .inl d         => return d
  | .inr (w, fuel) => w.resolveTraced check fuel

-- The only error that `deduct_provider_balance` raises.
inductive ValueError
  | negativeAmount
  | providerNotFound (providerId : UUID)
deriving DecidableEq

-- What `deduct_provider_balance` makes of the locked row, and the row it inserts into
-- `provider_balance_log`.
def deductProviderBalance (providerId : UUID) (amount : ℚ) (requestId : String)
    (usageRecordId : Option UUID) (note : Option String) (provider : Option Provider) :
    Except ValueError (Provider × ProviderBalanceLog) :=
  if amount < 0 then .error .negativeAmount
  else
    match provider with
    | none => .error (.providerNotFound providerId)
    | some provider =>
      let balanceBefore := provider.balanceUsd
      let balanceAfter := balanceBefore - amount
      let note := note.filter (· ≠ "") |>.getD ("usage_deduct request_id=" ++ requestId)
      let log := {
        providerId, changeType := "usage_deduct", amountUsd := -amount, balanceBefore,
        balanceAfter, usageRecordId, note }
      .ok ({ provider with balanceUsd := balanceAfter }, log)

-- `_should_send_warning`
def shouldSendWarning (now : Time) (p : Provider) : Bool :=
  match p.lastWarningAlertAt with
  | none      => true
  | some last => last + warningAlertCooldown ≤ now

inductive AlertEvent
  | warning
  | hardStop
deriving DecidableEq

-- What `check_thresholds` makes of the provider, and the status that it returns.
structure Checked where
  provider   : Provider
  newStatus  : Provider.Status
  alerts     : List AlertEvent
  cacheDirty : Bool
deriving DecidableEq

def checkThresholds (now : Time) (p : Provider) : Checked :=
  let balance := p.balanceUsd
  if balance < p.hardStopThreshold then
    if p.status ≠ .hardStop then
      let p := { p with status := .hardStop, hardStopActivatedAt := some now }
      { provider := p, newStatus := .hardStop, alerts := [.hardStop], cacheDirty := true }
    else
      { provider := p, newStatus := .hardStop, alerts := [], cacheDirty := false }
  else if balance < p.warningThreshold then
    let cacheDirty : Bool := p.status ≠ .warning
    let p := { p with status := .warning }
    if shouldSendWarning now p then
      let p := { p with lastWarningAlertAt := some now }
      { provider := p, newStatus := .warning, alerts := [.warning], cacheDirty }
    else
      { provider := p, newStatus := .warning, alerts := [], cacheDirty }
  else if p.status = .warning then
    let p := { p with status := .normal }
    { provider := p, newStatus := p.status, alerts := [], cacheDirty := true }
  else
    { provider := p, newStatus := p.status, alerts := [], cacheDirty := false }

end ProviderBalance
