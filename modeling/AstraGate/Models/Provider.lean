import AstraGate.Lib.Numeric
import AstraGate.Models.Credit

namespace Provider

-- The column `status`.
inductive Status
  | normal
  | warning
  | hardStop
deriving DecidableEq

end Provider

-- A provider as a session holds it in memory.
structure Provider where
  name                 : String
  balanceUsd           : ℚ
  warningThreshold     : ℚ
  hardStopThreshold    : ℚ
  status               : Provider.Status
  fallbackProviderId   : Option UUID
  lastWarningAlertAt   : Option Time
  hardStopActivatedAt  : Option Time
  isActive             : Bool
deriving DecidableEq

-- A row of `providers`: its balance is a `NUMERIC(12, 4)`, its thresholds are `NUMERIC(10, 2)`.
structure ProviderRow extends Provider where
  balance  : Numeric.Fits 4 balanceUsd
  warning  : Numeric.Fits 2 warningThreshold
  hardStop : Numeric.Fits 2 hardStopThreshold

-- What the database stores when a session flushes a provider.
def Provider.store (p : Provider) : ProviderRow where
  toProvider := { p with
    balanceUsd        := Numeric.quantize 4 p.balanceUsd
    warningThreshold  := Numeric.quantize 2 p.warningThreshold
    hardStopThreshold := Numeric.quantize 2 p.hardStopThreshold }
  balance  := Numeric.fits_quantize ..
  warning  := Numeric.fits_quantize ..
  hardStop := Numeric.fits_quantize ..

theorem Provider.store_toProvider (row : ProviderRow) : row.toProvider.store = row := by
  have ⟨p, hb, hw, hh⟩ := row
  simp [Provider.store, Numeric.quantize_eq_self hb, Numeric.quantize_eq_self hw,
    Numeric.quantize_eq_self hh]

-- A row of `provider_balance_log`.
structure ProviderBalanceLog where
  providerId    : UUID
  changeType    : String
  amountUsd     : ℚ
  balanceBefore : ℚ
  balanceAfter  : ℚ
  usageRecordId : Option UUID
  note          : String
deriving DecidableEq
