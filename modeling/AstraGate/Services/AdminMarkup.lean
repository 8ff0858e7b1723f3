import AstraGate.Lib.Numeric
import AstraGate.Services.Markup

open Function

namespace Markup

-- What the request sets a level's rate to.
structure MarkupRequest where
  markupRate : ℚ
  valid      : 0 ≤ markupRate ∧ markupRate ≤ 5

inductive UpdateError
  | valueError (message : String)
  | sql (e : Sql.Error)
  -- `updated_at` is read after an `UPDATE`, which computes it anew.
  | missingGreenlet
deriving DecidableEq

-- What is stored of a rate, in columns of type `NUMERIC(6, 4)`.
def storeRate (rate : ℚ) : ℚ :=
  Numeric.quantize 4 rate

-- The rates are such as the columns hold.
structure Stored (models : List Model) (configs : List MarkupConfig) : Prop where
  models  : ∀ m ∈ models, m.markupRate.map storeRate = m.markupRate
  configs : ∀ c ∈ configs, storeRate c.markupRate = c.markupRate

-- The levels whose rates are rows of `markup_config`.
inductive Level
  | global
  | provider (providerId : UUID)
deriving DecidableEq

namespace Level

def scope : Level → MarkupConfig.Scope
  | global     => .global
  | provider _ => .provider

def providerId : Level → Option UUID
  | global      => none
  | provider id => some id

-- The rows that the query of an update selects.
def rows (configs : List MarkupConfig) : Level → List MarkupConfig
  | global      => globalRows configs
  | provider id => providerRows configs id

-- The row that an update inserts.
def newConfig (l : Level) (id : UUID) (rate : ℚ) : MarkupConfig where
  id         := id
  scope      := l.scope
  providerId := l.providerId
  modelId    := none
  markupRate := storeRate rate

end Level

-- What an UPDATE of a row makes of the table.
def setRate (id : UUID) (rate : ℚ) (configs : List MarkupConfig) : List MarkupConfig :=
  configs.map fun c => if c.id = id then { c with markupRate := storeRate rate } else c

-- What `update_global_markup` and `update_provider_markup` share: the rows to be committed. A row
-- that they insert gets the given id. Nothing is flushed for a row that has the rate already.
def upsert (l : Level) (id : UUID) (rate : ℚ) (configs : List MarkupConfig) :
    Except UpdateError (List MarkupConfig) :=
  match Sql.scalarOneOrNone (l.rows configs) with
  | .error e          => .error (.sql e)
  | .ok none          => .ok (configs ++ [l.newConfig id rate])
  | .ok (some config) => if config.markupRate = rate then .ok configs else .error .missingGreenlet

def updateGlobalMarkup (id : UUID) (rate : ℚ) (configs : List MarkupConfig) :
    Except UpdateError (List MarkupConfig) :=
  upsert .global id rate configs

def updateProviderMarkup (str : UUID → String) (providers : List UUID) (providerId id : UUID)
    (rate : ℚ) (configs : List MarkupConfig) : Except UpdateError (List MarkupConfig) :=
  if providerId ∈ providers then
    upsert (.provider providerId) id rate configs
  else
    .error <| .valueError ("Provider not found: " ++ str providerId)

def updateModelMarkup (str : UUID → String) (modelId : UUID) (rate : Option ℚ)
    (models : List Model) : Except UpdateError (List Model) :=
  match models.find? (·.id = modelId) with
  | none       => .error <| .valueError ("Model not found: " ++ str modelId)
  | some model => if model.markupRate = rate then .ok models else .error .missingGreenlet

-- The level that a rate comes from.
inductive MarkupSource
  | model
  | provider
  | global
deriving DecidableEq

-- The rates of the levels above the models, as far as there are rows for them.
structure LevelRates where
  globalRate    : ℚ
  providerRates : UUID → Option ℚ

def LevelRates.add (r : LevelRates) (config : MarkupConfig) : LevelRates :=
  match config.scope, config.providerId with
  | .global, _         => { r with globalRate := config.markupRate }
  | .provider, some id =>
    { r with providerRates := update r.providerRates id (some config.markupRate) }
  | _, _               => r

def loadLevelRates (configs : List MarkupConfig) : LevelRates :=
  configs.foldl .add { globalRate := defaultMarkupRate, providerRates := fun _ => none }

def LevelRates.resolve (r : LevelRates) (model : Model) : ℚ × MarkupSource :=
  match model.markupRate, r.providerRates model.providerId with
  | some rate, _    => (rate, .model)
  | none, some rate => (rate, .provider)
  | none, none      => (r.globalRate, .global)

-- An entry of the list, with numbers of type `float`.
structure ListedModel (F : Type u) where
  id                   : String
  modelId              : String
  displayName          : String
  providerName         : String
  inputPricePer1m      : F
  outputPricePer1m     : F
  markupRate           : F
  markupSource         : MarkupSource
  effectiveInputPrice  : F
  effectiveOutputPrice : F

-- `list_models_with_markup`, where the queries return `models` and `configs`, and `providers` has
-- the display names of the providers.
def listModelsWithMarkup (str : UUID → String) (float : ℚ → F) (providers : UUID → Option String)
    (models : List ModelRow) (configs : List MarkupConfig) : List (ListedModel F) :=
  let rates := loadLevelRates configs
  models.map fun model =>
    let (resolvedRate, markupSource) := rates.resolve model.toModel
    let multiplier := 1 + resolvedRate
    {
      id                   := str model.id
      modelId              := model.modelId
      displayName          := model.displayName
      providerName         := providers model.providerId |>.getD "Unknown"
      inputPricePer1m      := float model.inputPricePer1m
      outputPricePer1m     := float model.outputPricePer1m
      markupRate           := float resolvedRate
      markupSource
      effectiveInputPrice  :=
        float <| Numeric.quantizeEven 6 (model.inputPricePer1m * multiplier)
      effectiveOutputPrice :=
        float <| Numeric.quantizeEven 6 (model.outputPricePer1m * multiplier) }

variable {l l' : Level} {configs configs' : List MarkupConfig} {c : MarkupConfig} {id : UUID}
  {rate : ℚ}

@[simp]
theorem storeRate_storeRate : storeRate (storeRate rate) = storeRate rate :=
  Numeric.quantize_eq_self (Numeric.fits_quantize 4 rate)

theorem Level.mem_rows : c ∈ l.rows configs ↔ c ∈ configs ∧ c.scope = l.scope ∧
    (c.scope = .provider → c.providerId = l.providerId) := by
  cases l <;> simp +contextual [rows, globalRows, providerRows, scope, providerId]

theorem Level.rows_append : l.rows (configs ++ configs') = l.rows configs ++ l.rows configs' := by
  cases l <;> simp [rows, globalRows, providerRows]

theorem Level.rows_newConfig :
    l.rows [l'.newConfig id rate] = if l' = l then [l'.newConfig id rate] else [] := by
  cases l <;> cases l' <;> simp [rows, globalRows, providerRows, newConfig, scope, providerId]
  grind

-- An update of a row moves it to no other level.
theorem Level.rows_setRate :
    l.rows (setRate id rate configs) = setRate id rate (l.rows configs) := by
  have hc : ∀ c : MarkupConfig,
      (if c.id = id then { c with markupRate := storeRate rate } else c).scope =
      c.scope ∧ (if c.id = id then { c with markupRate := storeRate rate } else c).providerId =
        c.providerId := by
    intro c
    by_cases hi : c.id = id <;> simp [hi]
  cases l <;> simp only [rows, globalRows, providerRows, setRate, List.filter_map] <;> congr 1 <;>
    refine List.filter_congr fun c _ => ?_ <;> simp [hc c]

theorem setRate_length : (setRate id rate configs).length = configs.length :=
  List.length_map ..

end Markup
