import AstraGate.Lib.Python
import AstraGate.Services.Theorems.Markup
import Mathlib.Data.List.Forall2
import Mathlib.Data.List.Induction

namespace Markup

-- Which level supplies the rate of a model, and the rate.
inductive Supplies (configs : List MarkupConfig) (m : Model) : MarkupSource → ℚ → Prop
  | model (own : m.markupRate = some rate) : Supplies configs m .model rate
  | provider (inherits : m.markupRate = none) (row : c ∈ providerRows configs m.providerId) :
    Supplies configs m .provider c.markupRate
  | global (inherits : m.markupRate = none) (none : providerRows configs m.providerId = [])
    (row : c ∈ globalRows configs) : Supplies configs m .global c.markupRate
  | builtIn (inherits : m.markupRate = none) (none : providerRows configs m.providerId = [])
    (missing : globalRows configs = []) : Supplies configs m .global defaultMarkupRate

-- The price of a model with the rate added to it.
def EffectivePrice (float : ℚ → F) (price rate : ℚ) (shown : F) : Prop :=
  ∃ effective, Numeric.RoundsHalfEven 6 (price * (1 + rate)) effective ∧ shown = float effective

-- An entry of the list shows the rate that would be charged for the model.
def Agrees (float : ℚ → F) (models : List Model) (configs : List MarkupConfig) (m : Model)
    (entry : ListedModel F) : Prop :=
  ∃ rate, resolveFromDb models configs m.id m.providerId = .ok rate ∧
    entry.markupRate = float rate ∧
    Supplies configs m entry.markupSource rate ∧
    EffectivePrice float m.inputPricePer1m rate entry.effectiveInputPrice ∧
    EffectivePrice float m.outputPricePer1m rate entry.effectiveOutputPrice

variable {models : List Model} {configs loaded : List MarkupConfig} {m : Model} {rate : ℚ}
  {source : MarkupSource}

theorem loadLevelRates_append (configs : List MarkupConfig) (c : MarkupConfig) :
    loadLevelRates (configs ++ [c]) = (loadLevelRates configs).add c := by
  rw [loadLevelRates, List.foldl_append]
  rfl

-- A row hides those before it at its level.
theorem loadLevelRates_eq (configs : List MarkupConfig) :
    (loadLevelRates configs).globalRate =
      ((Level.global.rows configs).getLast?.map MarkupConfig.markupRate).getD defaultMarkupRate ∧
    ∀ id, (loadLevelRates configs).providerRates id =
      ((Level.provider id).rows configs).getLast?.map MarkupConfig.markupRate := by
  induction configs using List.reverseRecOn
  case nil => exact ⟨rfl, fun _ => rfl⟩
  case append_singleton configs c ih =>
    have ⟨hg, hp⟩ := ih
    rw [loadLevelRates_append]
    obtain ⟨id, scope, providerId, modelId, rate⟩ := c
    cases scope <;> cases providerId
    case provider.some id' =>
      refine ⟨by simpa [LevelRates.add, Level.rows, globalRows] using hg, fun id => ?_⟩
      by_cases hi : id = id'
      case pos => simp [LevelRates.add, Level.rows, providerRows, hi]
      case neg => simpa [LevelRates.add, Level.rows, providerRows, hi, Ne.symm hi] using hp id
    case global.none | global.some =>
      refine ⟨by simp [LevelRates.add, Level.rows, globalRows], fun id => ?_⟩
      simpa [LevelRates.add, Level.rows, providerRows] using hp id
    all_goals
      refine ⟨by simpa [LevelRates.add, Level.rows, globalRows] using hg, fun id => ?_⟩
      simpa [LevelRates.add, Level.rows, providerRows] using hp id

theorem Unambiguous.rows_cases (h : Unambiguous configs) (l : Level) :
    l.rows configs = [] ∨ ∃ c, l.rows configs = [c] :=
  Nat.le_one_iff_eq_zero_or_eq_one.mp (h l) |>.imp List.length_eq_zero_iff.mp
    List.length_eq_one_iff.mp

theorem rows_of_perm (h : loaded.Perm configs) (hu : Unambiguous configs) (l : Level) :
    l.rows loaded = l.rows configs := by
  have hp : (l.rows loaded).Perm (l.rows configs) := by
    cases l <;> exact h.filter _
  cases hu.rows_cases l
  case inl hr => exact hr ▸ (hr ▸ hp).eq_nil
  case inr hr =>
    have ⟨c, hr⟩ := hr
    exact hr ▸ List.perm_singleton.mp (hr ▸ hp)

-- The fold over all rows finds the rate of the level that supplies it.
theorem supplies_resolve (h : loaded.Perm configs) (hu : Unambiguous configs) (m : Model) :
    Supplies configs m ((loadLevelRates loaded).resolve m).2
      ((loadLevelRates loaded).resolve m).1 := by
  have ⟨hg, hp⟩ := loadLevelRates_eq loaded
  have hp := hp m.providerId
  rw [rows_of_perm h hu] at hg hp
  unfold LevelRates.resolve
  cases hm : m.markupRate
  case some rate => exact .model hm
  case none =>
    cases hu.rows_cases (.provider m.providerId)
    case inr hr =>
      have ⟨c, hr⟩ := hr
      rw [hr] at hp
      simp only [hp, List.getLast?_singleton, Option.map_some]
      exact .provider hm (hr ▸ List.mem_singleton_self c : c ∈ (Level.provider _).rows configs)
    case inl hr =>
      rw [hr] at hp
      simp only [hp, hg, List.getLast?_nil, Option.map_none]
      cases hu.rows_cases .global
      case inl hr' =>
        rw [hr']
        exact .builtIn hm hr hr'
      case inr hr' =>
        have ⟨c, hr'⟩ := hr'
        rw [hr']
        exact .global hm hr (hr' ▸ List.mem_singleton_self c : c ∈ Level.global.rows configs)

theorem rates_model (hm : (models.map Model.id).Nodup) (hi : m ∈ models) :
    (rates models configs).model m.id = m.markupRate := by
  cases hf : models.find? (·.id = m.id)
  case none => simpa using List.find?_eq_none.mp hf m hi
  case some m' =>
    have he : m'.id = m.id := by simpa using List.find?_some hf
    have he := List.inj_on_of_nodup_map hm (List.mem_of_find?_eq_some hf) hi he
    simp [rates, hf, he]

theorem rates_level_of_mem (hu : Unambiguous configs) {l : Level} {c : MarkupConfig}
    (hc : c ∈ l.rows configs) : (rates models configs).level l = some c.markupRate := by
  cases hu.rows_cases l
  case inl hr => simp [hr] at hc
  case inr hr =>
    obtain ⟨c', hr⟩ := hr
    simp [rates, hr, List.mem_singleton.mp (hr ▸ hc)]

theorem rates_level_of_nil {l : Level} (hr : l.rows configs = []) :
    (rates models configs).level l = none := by
  simp [rates, hr]

theorem resolveFromDb_of_supplies (hm : (models.map Model.id).Nodup) (hu : Unambiguous configs)
    (hi : m ∈ models) (hs : Supplies configs m source rate) :
    resolveFromDb models configs m.id m.providerId = .ok rate := by
  rw [resolveFromDb_of_unambiguous hm hu, Rates.resolve, rates_model hm hi]
  cases hs
  case model own => rw [own]; rfl
  case provider c hi hr =>
    rw [hi, rates_level_of_mem (l := .provider m.providerId) hu hr]
    rfl
  case global c hi hn hr =>
    rw [hi, rates_level_of_nil (l := .provider m.providerId) hn,
      rates_level_of_mem (l := .global) hu hr]
    rfl
  case builtIn hi hn hn' =>
    rw [hi, rates_level_of_nil (l := .provider m.providerId) hn,
      rates_level_of_nil (l := .global) hn']
    rfl

-- The list that admins see agrees with what is charged.
theorem listModelsWithMarkup_agrees (str : UUID → String) (float : ℚ → F)
    (providers : UUID → Option String) {rows listed : List ModelRow}
    (hm : (rows.map (·.id)).Nodup) (hl : listed.Perm (rows.filter (·.isActive)))
    (hu : Unambiguous configs) (hc : loaded.Perm configs) :
    List.Forall₂ (fun row entry => entry.id = str row.id ∧
        Agrees float (rows.map (·.toModel)) configs row.toModel entry)
      listed (listModelsWithMarkup str float providers listed loaded) := by
  have hm : ((rows.map (·.toModel)).map Model.id).Nodup := by
    rwa [List.map_map]
  rw [listModelsWithMarkup, List.forall₂_map_right_iff, List.forall₂_same]
  intro row hr
  have hi : row.toModel ∈ rows.map (·.toModel) :=
    List.mem_map_of_mem (List.mem_filter.mp (hl.mem_iff.mp hr)).left
  have hs := supplies_resolve hc hu row.toModel
  exact ⟨rfl, _, resolveFromDb_of_supplies hm hu hi hs, rfl, hs,
    ⟨_, Numeric.roundsHalfEven_quantizeEven .., rfl⟩,
    ⟨_, Numeric.roundsHalfEven_quantizeEven .., rfl⟩⟩

-- A model with a rate of its own, one whose provider has the rate zero, and one without either.
theorem listModelsWithMarkup_agrees_on_levels :
    let row (id providerId : UUID) (rate : Option ℚ) : ModelRow :=
      ⟨⟨id, providerId, "m", 1 / 20, 2 / 25, rate, true⟩, "M"⟩
    let rows := [row 1 1 (some (1 / 2)), row 2 1 none, row 3 2 none]
    let configs := [⟨1, .other "model", none, some 1, 1⟩, ⟨2, .provider, some 1, none, 0⟩,
      ⟨3, .global, none, none, 3 / 10⟩]
    List.Forall₂ (fun row entry => entry.id = Python.str row.id ∧
        Agrees id (rows.map (·.toModel)) configs row.toModel entry)
      rows (listModelsWithMarkup Python.str id (fun _ => some "Groq") rows configs) := by
  intro row rows configs
  have hu : Unambiguous configs := by
    intro l
    cases l
    case global      => decide
    case provider id => by_cases hi : 1 = id <;> simp [Level.rows, providerRows, configs, hi]
  exact listModelsWithMarkup_agrees _ _ _ (by decide) (.refl _) hu (.refl _)

end Markup
