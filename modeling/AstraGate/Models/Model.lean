import AstraGate.Models.Credit

-- A row of `models`. Prices are in USD per million tokens.
structure Model where
  id               : UUID
  providerId       : UUID
  modelId          : String
  inputPricePer1m  : ℚ
  outputPricePer1m : ℚ
  markupRate       : Option ℚ
  isActive         : Bool
deriving DecidableEq

-- A row of `models`, with the column that only a list of the models shows.
structure ModelRow extends Model where
  displayName : String

namespace MarkupConfig

-- The column `scope`.
inductive Scope
  | global
  | provider
  | other (text : String)
deriving DecidableEq

end MarkupConfig

-- A row of `markup_config`.
structure MarkupConfig where
  id         : UUID
  scope      : MarkupConfig.Scope
  providerId : Option UUID
  modelId    : Option UUID
  markupRate : ℚ
deriving DecidableEq
