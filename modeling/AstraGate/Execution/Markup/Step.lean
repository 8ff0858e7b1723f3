import AstraGate.Lib.Steps
import AstraGate.Services.AdminMarkup

open Function

namespace Markup

-- The committed rows of `models` and `markup_config`, and the keys in Redis.
structure State where
  models  : List Model
  configs : List MarkupConfig
  redis   : Redis.Keyspace

-- Ids are primary keys, and no rate has been cached.
structure State.Initial (s : State) : Prop where
  modelIds : (s.models.map Model.id).Nodup
  stored   : Stored s.models s.configs
  empty    : ∀ key, IsMarkupKey key → s.redis key = none

-- `str` and `float` of ids and rates, and the rows of `providers`.
variable (str : UUID ↪ String) (text : RateText) (providers : List UUID)

-- What a call of `resolve_markup_rate` for a model returns, and leaves in Redis.
def State.resolve (s : State) (model : Model) : Except Sql.Error ℚ × Redis.Keyspace :=
  resolveMarkupRate str text s.models s.configs model.id model.providerId s.redis

-- How an update of a level ends: the rows are committed, or they are rolled back with an error,
-- before or after the loop over the cached rates.
def State.updateLevel (s : State) (replies : List Redis.Reply) :
    Except UpdateError (List MarkupConfig) → State
  | .ok configs             => { s with configs, redis := Redis.sweep replies s.redis }
  | .error .missingGreenlet => { s with redis := Redis.sweep replies s.redis }
  | .error _                => s

def State.updateModel (s : State) (modelId : UUID) : Except UpdateError (List Model) → State
  | .ok models              =>
    { s with models, redis := Redis.delete [cacheKey str modelId] s.redis }
  | .error .missingGreenlet => { s with redis := Redis.delete [cacheKey str modelId] s.redis }
  | .error _                => s

-- Requests that are completed one after another, with keys that expire at any time. The row that an
-- update may insert gets a new id.
inductive Step (s : State) : State → Type
  | expire (key : String) : Step s { s with redis := update s.redis key none }
  | resolve (model : Model) (mem : model ∈ s.models) :
    Step s { s with redis := (s.resolve str text model).2 }
  | updateGlobal (body : MarkupRequest) (id : UUID) (replies : List Redis.Reply)
    (new : id ∉ s.configs.map MarkupConfig.id) (scan : Redis.Scan IsMarkupKey s.redis replies) :
    Step s (s.updateLevel replies <| updateGlobalMarkup id body.markupRate s.configs)
  | updateProvider (providerId : UUID) (body : MarkupRequest) (id : UUID)
    (replies : List Redis.Reply) (new : id ∉ s.configs.map MarkupConfig.id)
    (scan : Redis.Scan IsMarkupKey s.redis replies) :
    Step s (s.updateLevel replies <|
      updateProviderMarkup str providers providerId id body.markupRate s.configs)
  | updateModel (modelId : UUID) (body : Option MarkupRequest) :
    Step s (s.updateModel str modelId <|
      updateModelMarkup str modelId (body.map MarkupRequest.markupRate) s.models)

abbrev Run := Steps (Step str text providers)

end Markup
