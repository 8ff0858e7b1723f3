import AstraGate.Execution.Markup.Step
import AstraGate.Lib.Python
import AstraGate.Services.Theorems.Markup
import Mathlib.Data.Rat.Encodable

open Function

namespace Markup

variable {str : UUID ↪ String} {text : RateText} {providers : List UUID} {s s' s₁ s₂ : State}
  {configs : List MarkupConfig} {models : List Model} {replies : List Redis.Reply}
  {model : Model} {l : Level} {id : UUID}

@[simp]
theorem State.updateLevel_models (s : State) :
    (s.updateLevel replies result).models = s.models := by
  unfold updateLevel
  split <;> rfl

-- What is cached of a model is what the database says about it.
structure State.Invariant (str : UUID ↪ String) (text : RateText) (s : State) : Prop where
  modelIds : (s.models.map Model.id).Nodup
  stored   : Stored s.models s.configs
  cached   : ∀ model ∈ s.models, ∀ value, s.redis (cacheKey str model.id) = some value →
    ∃ rate, value = text.str rate ∧
      resolveFromDb s.models s.configs model.id model.providerId = .ok rate

theorem State.Initial.invariant (h : s.Initial) : s.Invariant str text where
  modelIds        := h.modelIds
  stored          := h.stored
  cached m _ v hv := by rw [h.empty _ (isMarkupKey_cacheKey str m.id)] at hv; contradiction

namespace State.Invariant

theorem resolve_eq (h : s.Invariant str text) (hm : model ∈ s.models) :
    (s.resolve str text model).1 = resolveFromDb s.models s.configs model.id model.providerId := by
  simp only [resolve, resolveMarkupRate]
  cases hc : s.redis (cacheKey str model.id)
  case none =>
    cases resolveFromDb s.models s.configs model.id model.providerId <;> rfl
  case some value =>
    have ⟨rate, hv, hr⟩ := h.cached model hm value hc
    simp [hv, hr, text.float_str]

-- A call caches nothing but the rate that it has resolved.
theorem redis_resolve (str : UUID ↪ String) (text : RateText) (s : State) (model : Model) :
    (s.resolve str text model).2 = s.redis ∨
      ∃ rate, resolveFromDb s.models s.configs model.id model.providerId = .ok rate ∧
        (s.resolve str text model).2 =
          update s.redis (cacheKey str model.id) (some <| text.str rate) := by
  simp only [resolve, resolveMarkupRate]
  cases s.redis (cacheKey str model.id) |>.bind text.float
  case some => exact .inl rfl
  case none =>
    cases hr : resolveFromDb s.models s.configs model.id model.providerId
    case error   => exact .inl rfl
    case ok rate => exact .inr ⟨rate, rfl, rfl⟩

-- After an update of the rows of `markup_config`, or an attempt at one, nothing is cached.
theorem of_sweep (h : s.Invariant str text) (hc : Stored s.models configs)
    (hs : Redis.Scan IsMarkupKey s.redis replies) :
    { s with configs, redis := Redis.sweep replies s.redis : State }.Invariant str text where
  modelIds        := h.modelIds
  stored          := hc
  cached m _ v hv := by
    have hn := hs.sweep_of_pattern (isMarkupKey_cacheKey str m.id)
    exact nomatch hn.symm.trans hv

theorem updateLevel (h : s.Invariant str text) (hu : ∀ {configs}, result = .ok configs →
    ∃ id rate, upsert l id rate s.configs = .ok configs)
    (hs : Redis.Scan IsMarkupKey s.redis replies) :
    (s.updateLevel replies result).Invariant str text := by
  unfold State.updateLevel
  split
  case h_1 =>
    have ⟨_, _, hu⟩ := hu rfl
    exact h.of_sweep (stored_upsert h.stored hu) hs
  case h_2 => exact h.of_sweep h.stored hs
  case h_3 => exact h

theorem of_delete (h : s.Invariant str text) (modelId : UUID) :
    { s with redis := Redis.delete [cacheKey str modelId] s.redis : State }.Invariant str text where
  modelIds         := h.modelIds
  stored           := h.stored
  cached m hm v hv := by
    refine h.cached m hm v ?_
    simp only [Redis.delete] at hv
    split_ifs at hv
    exact hv

end State.Invariant

namespace Step

theorem preserves_invariant (e : Step str text providers s s') (h : s.Invariant str text) :
    s'.Invariant str text := by
  cases e
  case expire key =>
    refine ⟨h.modelIds, h.stored, fun m hm v hv => h.cached m hm v ?_⟩
    dsimp only at hv
    by_cases hk : cacheKey str m.id = key
    case pos => rw [hk, update_self] at hv; contradiction
    case neg => rwa [update_of_ne hk] at hv
  case resolve model hm =>
    refine ⟨h.modelIds, h.stored, fun m hm' v hv => ?_⟩
    cases State.Invariant.redis_resolve str text s model
    case inl hr => exact h.cached m hm' v (hr ▸ hv)
    case inr hr =>
      have ⟨rate, hd, hr⟩ := hr
      dsimp only at hv hm' ⊢
      rw [hr] at hv
      by_cases hk : m.id = model.id
      case pos =>
        cases List.inj_on_of_nodup_map h.modelIds hm' hm hk
        rw [update_self] at hv
        exact ⟨rate, (Option.some.inj hv).symm, hd⟩
      case neg =>
        rw [update_of_ne (cacheKey_inj.not.mpr hk)] at hv
        exact h.cached m hm' v hv
  case updateGlobal hs   => exact h.updateLevel (fun hu => ⟨_, _, hu⟩) hs
  case updateProvider hs => exact h.updateLevel (fun hu => ⟨_, _, updateProviderMarkup_eq_ok hu⟩) hs
  case updateModel modelId body =>
    cases hu : updateModelMarkup str modelId (body.map MarkupRequest.markupRate) s.models
    case ok models =>
      obtain ⟨_, rfl⟩ := updateModelMarkup_eq_ok hu
      exact h.of_delete modelId
    case error e =>
      cases e
      case missingGreenlet => exact h.of_delete modelId
      all_goals exact h

-- The loop over the cached rates leaves none of them behind, and deletes no other key.
structure Sweeps (replies : List Redis.Reply) (s s' : State) : Prop where
  deletes : ∀ key, IsMarkupKey key → s'.redis key = none
  keeps   : ∀ key, ¬IsMarkupKey key → (∀ r ∈ replies, key ∉ r.expired) → s'.redis key = s.redis key

-- An update that is committed makes its rate the one of its level, and changes no other. One that
-- fails changes none.
def Updates (l : Level) (rate : ℚ) (replies : List Redis.Reply) (s s' : State) :
    Except UpdateError (List MarkupConfig) → Prop
  | .ok _ =>
    Sweeps replies s s' ∧ rates s'.models s'.configs = { rates s.models s.configs with
      level := update (rates s.models s.configs).level l (some <| storeRate rate) }
  | .error .missingGreenlet =>
    Sweeps replies s s' ∧ rates s'.models s'.configs = rates s.models s.configs
  | .error _ => s' = s

-- A call that resolves a rate returns the one of the model, or else of its provider, or else the
-- global one, or else the default, as they are stored now.
def Coherent {s s' : State} : Step str text providers s s' → Prop
  | expire _ => True
  | resolve model _ =>
    (s.resolve str text model).1 =
      .ok ((rates s.models s.configs).resolve model.id model.providerId)
  | updateGlobal body id replies _ _ =>
    Updates .global body.markupRate replies s s' <|
      updateGlobalMarkup id body.markupRate s.configs
  | updateProvider providerId body id replies _ _ =>
    Updates (.provider providerId) body.markupRate replies s s' <|
      updateProviderMarkup str providers providerId id body.markupRate s.configs
  | updateModel modelId body =>
    let rate := body.map MarkupRequest.markupRate
    rates s'.models s'.configs =
      if (updateModelMarkup str modelId rate s.models).isOk then { rates s.models s.configs with
        model := update (rates s.models s.configs).model modelId (rate.map storeRate) }
      else rates s.models s.configs

-- None of the levels that a call asks for a rate has two rows.
def Definite {s s' : State} : Step str text providers s s' → Prop
  | resolve model _ => Markup.Definite s.models s.configs model.id model.providerId
  | _               => True

theorem updates_updateLevel (h : s.Invariant str text)
    (hu : ∀ {configs}, result = .ok configs → ∃ id, upsert l id rate s.configs = .ok configs)
    (hs : Redis.Scan IsMarkupKey s.redis replies) :
    Updates l rate replies s (s.updateLevel replies result) result := by
  cases result
  case ok configs =>
    have ⟨_, hu⟩ := hu rfl
    exact ⟨⟨fun _ => hs.sweep_of_pattern, fun _ => hs.sweep_of_not_pattern⟩,
      rates_upsert h.stored hu⟩
  case error e =>
    cases e
    case missingGreenlet =>
      exact ⟨⟨fun _ => hs.sweep_of_pattern, fun _ => hs.sweep_of_not_pattern⟩, rfl⟩
    all_goals rfl

theorem coherent_iff (e : Step str text providers s s') (h : s.Invariant str text) :
    e.Coherent ↔ e.Definite := by
  cases e
  case expire => exact Iff.rfl
  case resolve hm =>
    rw [Coherent, h.resolve_eq hm]
    exact resolveFromDb_eq_iff h.modelIds
  case updateGlobal hs =>
    exact iff_of_true (updates_updateLevel h (fun hu => ⟨_, hu⟩) hs) trivial
  case updateProvider hs =>
    refine iff_of_true (updates_updateLevel h (fun hu => ?_) hs) trivial
    exact ⟨_, updateProviderMarkup_eq_ok hu⟩
  case updateModel modelId body =>
    refine iff_of_true ?_ trivial
    dsimp only [Coherent]
    cases hu : updateModelMarkup str modelId (body.map MarkupRequest.markupRate) s.models
    case ok models => exact rates_updateModelMarkup h.stored hu
    case error e   => cases e <;> rfl

theorem preserves_unambiguous (e : Step str text providers s s') (hu : Unambiguous s.configs) :
    Unambiguous s'.configs := by
  have level : ∀ {l result replies}, (∀ {configs}, result = .ok configs →
      ∃ id rate, upsert l id rate s.configs = .ok configs) →
      Unambiguous (s.updateLevel replies result).configs := by
    intro l result replies hr
    unfold State.updateLevel
    split
    case h_1 =>
      have ⟨_, _, hr⟩ := hr rfl
      exact unambiguous_upsert hr hu
    all_goals exact hu
  cases e
  case updateGlobal   => exact level fun hr => ⟨_, _, hr⟩
  case updateProvider => exact level fun hr => ⟨_, _, updateProviderMarkup_eq_ok hr⟩
  case updateModel modelId body =>
    cases updateModelMarkup str modelId (body.map MarkupRequest.markupRate) s.models
    case ok models => exact hu
    case error e   => cases e <;> exact hu
  all_goals exact hu

end Step

-- Between any two updates and expirations a call returns the rate that is stored at the time,
-- whatever has been cached before, unless two rows of `markup_config` claim a level that it asks.
-- Updates one after another do not bring that about.
theorem resolveMarkupRate_coherent_iff (es : Run str text providers s₁ s₂) (h : s₁.Initial) :
    (es.All Step.Coherent ↔ es.All Step.Definite) ∧
      (Unambiguous s₁.configs → es.All Step.Definite) := by
  constructor
  case left =>
    exact es.all_iff_all (fun e hi _ => e.preserves_invariant hi) (fun e hi => e.coherent_iff hi)
      h.invariant
  case right =>
    refine es.all_of_preserved (fun e => e.preserves_unambiguous) fun e hu => ?_
    cases e
    case resolve => exact hu.definite
    all_goals trivial

-- The text of one rate, and made up texts for the others.
def quarterText : RateText where
  str r     :=
    if r = 1 / 4 then "0.25"
    else String.ofList ('#' :: (Nat.toDigits 10 (Encodable.encode r)))
  float s   :=
    if s = "0.25" then some (1 / 4) else Encodable.decode (Nat.ofDigitChars 10 (s.toList.drop 1) 0)
  float_str := by
    intro r
    by_cases hr : r = 1 / 4
    case pos => simp [hr]
    case neg =>
      have hn : String.ofList ('#' :: Nat.toDigits 10 (Encodable.encode r)) ≠ "0.25" := by
        intro h
        have h := congrArg (fun s : String => s.toList.head?) h
        simp at h
      simp only [if_neg hr, if_neg hn, String.toList_ofList, List.drop_succ_cons, List.drop_zero,
        Nat.ofDigitChars_ten_toDigits, Encodable.encodek]

-- A global rate is cached until an update deletes it, which then fails, as there is a row already.
theorem resolveMarkupRate_coherent_iff_of_updateGlobal :
    ∃ (s₁ s₂ : State) (es : Run Python.str quarterText [] s₁ s₂),
      s₂.configs.map MarkupConfig.markupRate = [1 / 4] ∧ s₂.redis "markup:7" = some "0.25" ∧
      es.All Step.Coherent := by
  let model : Model := ⟨7, 3, "gpt-4o", 0, 0, none, true⟩
  let s₁ : State := { models := [model], configs := [], redis := fun _ => none }
  have hs : Redis.Scan IsMarkupKey s₁.redis [] := ⟨by simp, fun _ _ hk => absurd rfl hk⟩
  have hs' : ∀ s : State, s.redis = s₁.redis → Redis.Scan IsMarkupKey
      (s.resolve Python.str quarterText model).2 [⟨[], ["markup:7"]⟩] := by
    intro s hr
    constructor
    case matching => simp [IsMarkupKey, redisMarkupPrefix]
    case complete =>
      intro key _ hk _
      refine ⟨_, List.mem_cons_self, List.mem_singleton.mpr <| by_contra fun hn => hk ?_⟩
      obtain hu | ⟨rate, _, hu⟩ := State.Invariant.redis_resolve Python.str quarterText s model
      · rw [hu, hr]
      · rw [hu, hr]
        exact update_of_ne (show key ≠ cacheKey Python.str 7 from hn) ..
  let es : Run Python.str quarterText [] s₁ _ :=
    .step (.updateGlobal ⟨1 / 4, by decide +kernel⟩ 1 [] (by simp [s₁]) hs) <|
    .step (.resolve model List.mem_cons_self) <|
    .step (.updateGlobal ⟨3 / 10, by decide +kernel⟩ 2 _ (by decide) (hs' _ rfl)) <|
    .step (.resolve model <| by rw [State.updateLevel_models]; exact List.mem_cons_self) .refl
  have h : s₁.Initial := ⟨by simp [s₁], ⟨by simp [s₁, model], by simp [s₁]⟩, fun _ _ => rfl⟩
  obtain ⟨hc, hd⟩ := resolveMarkupRate_coherent_iff es h
  have hu : Unambiguous s₁.configs := fun l => by cases l <;> exact Nat.zero_le 1
  exact ⟨s₁, _, es, by decide +kernel, by decide +kernel, hc.mpr (hd hu)⟩

-- Two rows claim to have the global rate.
theorem not_coherent_of_two_rows :
    ¬∀ (str : UUID ↪ String) (text : RateText) (providers : List UUID) (s₁ s₂ : State)
      (es : Run str text providers s₁ s₂), s₁.Initial → es.All Step.Coherent := by
  intro hc
  let model : Model := ⟨7, 3, "gpt-4o", 0, 0, none, true⟩
  let s₁ : State := {
    models  := [model]
    configs := [⟨1, .global, none, none, 0⟩, ⟨2, .global, none, none, 0⟩]
    redis   := fun _ => none }
  let es : Run Python.str quarterText [] s₁ _ := .step (.resolve model List.mem_cons_self) .refl
  have h : s₁.Initial :=
    ⟨by simp [s₁], ⟨by simp [s₁, model], by decide +kernel⟩, fun _ _ => rfl⟩
  exact nomatch (hc Python.str quarterText [] s₁ _ es h).left

end Markup
