import AstraGate.Services.AdminMarkup

open Function

namespace Markup

-- The rates that are configured: those of the models, and those of the levels above them.
@[ext]
structure Rates where
  model : UUID → Option ℚ
  level : Level → Option ℚ

-- The rate of a model comes from the first level that has one.
def Rates.resolve (r : Rates) (modelId providerId : UUID) : ℚ :=
  r.model modelId |>.or (r.level <| .provider providerId) |>.or (r.level .global) |>.getD
    defaultMarkupRate

def rates (models : List Model) (configs : List MarkupConfig) : Rates where
  model id := models.find? (·.id = id) |>.bind Model.markupRate
  level l  := l.rows configs |>.head?.map MarkupConfig.markupRate

-- No level has two rates.
def Unambiguous (configs : List MarkupConfig) : Prop :=
  ∀ l : Level, (l.rows configs).length ≤ 1

-- None of the levels has two that are asked for the rate of a model.
def Definite (models : List Model) (configs : List MarkupConfig) (modelId providerId : UUID) :
    Prop :=
  (rates models configs).model modelId = none →
    (providerRows configs providerId).length ≤ 1 ∧
      (providerRows configs providerId = [] → (globalRows configs).length ≤ 1)

variable {models models' : List Model} {configs configs' : List MarkupConfig} {l : Level}
  {str : UUID → String} {providers : List UUID} {modelId providerId id : UUID}

theorem resolveFromDb_eq_iff (hm : (models.map Model.id).Nodup) :
    resolveFromDb models configs modelId providerId =
        .ok ((rates models configs).resolve modelId providerId) ↔
      Definite models configs modelId providerId := by
  have hm : Sql.scalarOneOrNone (models.filter (·.id = modelId) |>.map Model.markupRate) =
      .ok (models.find? (·.id = modelId) |>.map Model.markupRate) := by
    rw [Sql.scalarOneOrNone_map (Sql.length_filter_le_one hm modelId), List.head?_filter]
  have hr : (models.find? (·.id = modelId) |>.map Model.markupRate).join =
      (rates models configs).model modelId := by
    cases hf : models.find? (·.id = modelId) <;> simp [rates, hf]
  simp only [resolveFromDb, bind, Except.bind, hm, hr, Rates.resolve, Definite]
  cases hmodel : (rates models configs).model modelId
  case some rate => exact iff_of_true rfl nofun
  case none =>
    have hp : (rates models configs).level (.provider providerId) =
        ((providerRows configs providerId).head?.map MarkupConfig.markupRate) := rfl
    have hg : (rates models configs).level .global =
        ((globalRows configs).head?.map MarkupConfig.markupRate) := rfl
    rw [hp, hg]
    match providerRows configs providerId, globalRows configs with
    | [], []               => simp [pure, Except.pure]
    | [], [_]              => simp [pure, Except.pure]
    | [], _ :: _ :: _      => simp [Sql.scalarOneOrNone]
    | [_], _               => simp [pure, Except.pure]
    | _ :: _ :: _, _       => simp [Sql.scalarOneOrNone]

theorem Unambiguous.definite (h : Unambiguous configs) :
    Definite models configs modelId providerId :=
  fun _ => ⟨h (.provider providerId), fun _ => h .global⟩

theorem resolveFromDb_of_unambiguous (hm : (models.map Model.id).Nodup) (hu : Unambiguous configs) :
    resolveFromDb models configs modelId providerId =
      .ok ((rates models configs).resolve modelId providerId) :=
  (resolveFromDb_eq_iff hm).mpr hu.definite

theorem upsert_eq_ok (h : upsert l id rate configs = .ok configs') :
    l.rows configs = [] ∧ configs' = configs ++ [l.newConfig id rate] ∨
      ∃ config, l.rows configs = [config] ∧ config.markupRate = rate ∧ configs' = configs := by
  unfold upsert at h
  split at h
  case h_1 => contradiction
  case h_2 hr =>
    cases h
    exact .inl ⟨Sql.scalarOneOrNone_eq_none_iff.mp hr, rfl⟩
  case h_3 config hr =>
    split_ifs at h with hc
    cases h
    exact .inr ⟨config, Sql.scalarOneOrNone_eq_some_iff.mp hr, hc, rfl⟩

theorem updateProviderMarkup_eq_ok
    (h : updateProviderMarkup str providers providerId id rate configs = .ok configs') :
    upsert (.provider providerId) id rate configs = .ok configs' := by
  unfold updateProviderMarkup at h
  split_ifs at h
  exact h

theorem updateModelMarkup_eq_ok (h : updateModelMarkup str modelId newRate models = .ok models') :
    (∃ model, models.find? (·.id = modelId) = some model ∧ model.markupRate = newRate) ∧
      models' = models := by
  unfold updateModelMarkup at h
  split at h
  case h_1 => contradiction
  case h_2 model hf =>
    split_ifs at h with hr
    cases h
    exact ⟨⟨model, hf, hr⟩, rfl⟩

theorem stored_upsert (hs : Stored models configs) (h : upsert l id rate configs = .ok configs') :
    Stored models configs' := by
  obtain ⟨_, rfl⟩ | ⟨_, _, _, rfl⟩ := upsert_eq_ok h
  · refine ⟨hs.models, List.forall_mem_append.mpr ⟨hs.configs, ?_⟩⟩
    simp [Level.newConfig]
  · exact hs

-- An update leaves one row at its level, with the new rate, and the rows of other levels as they
-- are.
theorem rows_upsert (hs : Stored models configs) (h : upsert l id rate configs = .ok configs') :
    ∃ row : MarkupConfig, row.markupRate = storeRate rate ∧
      ∀ l' : Level, l'.rows configs' = if l' = l then [row] else l'.rows configs := by
  obtain ⟨hr, rfl⟩ | ⟨config, hr, rfl, rfl⟩ := upsert_eq_ok h
  · refine ⟨l.newConfig id rate, rfl, fun l' => ?_⟩
    rw [Level.rows_append, Level.rows_newConfig]
    by_cases hl : l' = l
    case pos => simp [hl, hr]
    case neg => simp [hl, Ne.symm hl]
  · have hm : config ∈ l.rows configs' := hr ▸ List.mem_singleton_self config
    refine ⟨config, (hs.configs config (Level.mem_rows.mp hm).left).symm, fun l' => ?_⟩
    by_cases hl : l' = l
    case pos => rw [if_pos hl, hl, hr]
    case neg => rw [if_neg hl]

theorem rates_upsert (hs : Stored models configs) (h : upsert l id rate configs = .ok configs') :
    rates models configs' = { rates models configs with
      level := update (rates models configs).level l (some <| storeRate rate) } := by
  have ⟨row, hr, hl⟩ := rows_upsert hs h
  refine Rates.ext rfl <| funext fun l' => ?_
  by_cases he : l' = l
  case pos => simp [rates, hl, he, hr]
  case neg => simp [rates, hl, he]

theorem unambiguous_upsert (h : upsert l id rate configs = .ok configs')
    (hu : Unambiguous configs) : Unambiguous configs' := by
  obtain ⟨hr, rfl⟩ | ⟨_, _, _, rfl⟩ := upsert_eq_ok h
  · intro l'
    rw [Level.rows_append, Level.rows_newConfig]
    by_cases hl : l = l'
    case pos => simp [← hl, hr]
    case neg => simpa [hl] using hu l'
  · exact hu

theorem rates_updateModelMarkup (hs : Stored models configs)
    (h : updateModelMarkup str modelId newRate models = .ok models') :
    rates models' configs = { rates models configs with
      model := update (rates models configs).model modelId (newRate.map storeRate) } := by
  obtain ⟨⟨model, hf, rfl⟩, rfl⟩ := updateModelMarkup_eq_ok h
  have hm : (rates models' configs).model modelId = model.markupRate := by simp [rates, hf]
  refine Rates.ext ?_ rfl
  rw [hs.models model (List.mem_of_find?_eq_some hf), ← hm, update_eq_self]

end Markup
