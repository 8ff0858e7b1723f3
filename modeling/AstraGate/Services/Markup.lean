import AstraGate.Lib.Redis
import AstraGate.Lib.Sql
import AstraGate.Models.Model
import Mathlib.Logic.Function.Basic

open Function

namespace Markup

-- `DEFAULT_MARKUP_RATE`
def defaultMarkupRate : ℚ :=
  1 / 5

-- The rows that the lookups of the two levels above a model's own rate select.
def providerRows (configs : List MarkupConfig) (providerId : UUID) : List MarkupConfig :=
  configs.filter fun c => c.scope = .provider ∧ c.providerId = some providerId

def globalRows (configs : List MarkupConfig) : List MarkupConfig :=
  configs.filter (·.scope = .global)

-- `_resolve_from_db`
def resolveFromDb (models : List Model) (configs : List MarkupConfig) (modelId providerId : UUID) :
    Except Sql.Error ℚ := do
  let modelMarkup ←
    Sql.scalarOneOrNone <| models.filter (·.id = modelId) |>.map Model.markupRate
  match modelMarkup.join with
  | some rate => return rate
  | none      =>
    let providerMarkup ←
      Sql.scalarOneOrNone <| providerRows configs providerId |>.map MarkupConfig.markupRate
    match providerMarkup with
    | some rate => return rate
    | none      =>
      let globalMarkup ← Sql.scalarOneOrNone <| globalRows configs |>.map MarkupConfig.markupRate
      return globalMarkup.getD defaultMarkupRate

-- `REDIS_MARKUP_PREFIX`
def redisMarkupPrefix : String :=
  "markup:"

-- The texts that `str` makes of rates, and what `float` reads from texts.
structure RateText where
  str       : ℚ → String
  float     : String → Option ℚ
  float_str : ∀ rate, float (str rate) = some rate

section

-- `str` of a UUID.
variable (str : UUID → String) (text : RateText)

def cacheKey (modelId : UUID) : String :=
  redisMarkupPrefix ++ str modelId

-- `resolve_markup_rate`, with the keys it leaves in Redis.
def resolveMarkupRate (models : List Model) (configs : List MarkupConfig)
    (modelId providerId : UUID) (redis : Redis.Keyspace) :
    Except Sql.Error ℚ × Redis.Keyspace :=
  match redis (cacheKey str modelId) |>.bind text.float with
  | some cached => (.ok cached, redis)
  | none =>
    match resolveFromDb models configs modelId providerId with
    | .error e => (.error e, redis)
    | .ok rate => (.ok rate, update redis (cacheKey str modelId) (some <| text.str rate))

end

-- The pattern of the keys that `invalidate_markup_cache` deletes if it is given no model.
def IsMarkupKey (key : String) : Prop :=
  redisMarkupPrefix.toList <+: key.toList

theorem isMarkupKey_cacheKey (str : UUID → String) (id : UUID) : IsMarkupKey (cacheKey str id) := by
  simp [IsMarkupKey, cacheKey]

theorem cacheKey_inj {str : UUID ↪ String} {id id' : UUID} :
    cacheKey str id = cacheKey str id' ↔ id = id' := by
  rw [cacheKey, cacheKey, ← String.toList_inj, String.toList_append, String.toList_append,
    List.append_cancel_left_eq, String.toList_inj, str.injective.eq_iff]

end Markup
