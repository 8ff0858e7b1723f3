import AstraGate.Api.Admin
import AstraGate.Lib.Steps
import AstraGate.Services.ProviderBalance

open ProviderBalance

namespace Alert

structure State where
  now      : Time
  provider : Provider

namespace State

def checked (s : State) : Checked :=
  checkThresholds s.now s.provider

def change (s : State) (balanceUsd warningThreshold hardStopThreshold : ℚ) : State :=
  { s with provider := { s.provider with balanceUsd, warningThreshold, hardStopThreshold } }

end State

-- The transactions that change a provider, one after another. Each check reads the clock once.
inductive Step (s : State) : State → Type
  | tick (d : Time) : Step s { s with now := s.now + d }
  | check : Step s { s with provider := s.checked.provider }
  | change (balanceUsd warningThreshold hardStopThreshold : ℚ) :
    Step s (s.change balanceUsd warningThreshold hardStopThreshold)
  | release (new : Provider) (ok : Admin.releaseHardStop s.provider = .ok new) :
    Step s { s with provider := new }

abbrev Run := Steps Step

-- The time of the warning that a step emits, if it does.
def Step.warning? {s s' : State} : Step s s' → Option Time
  | check => if .warning ∈ s.checked.alerts then some s.now else none
  | _     => none

end Alert
