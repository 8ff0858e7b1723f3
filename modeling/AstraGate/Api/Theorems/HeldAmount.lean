import AstraGate.Api.Theorems.Resolution
import AstraGate.Services.Theorems.Rounding

open Python Numeric

namespace Gateway

-- A `NUMERIC(12, 6)` can hold the balance. Otherwise the flush raises, and the request is rejected.
def Storable (account : CreditAccount) : Prop :=
  |account.balanceUsd| < 10 ^ 6

-- A request either is rejected before it does anything, or first of all commits a hold that does
-- not raise the balance of its account.
def NeverRaises (env : Env) (x : Handler Response) : Prop :=
  (x.trace = [] ∧ ∃ e, x.result = .error e) ∨
  ∃ q rest account held,
    x.trace = .holdCredit env.userId env.requestId q :: .commit :: rest ∧
      env.account = some account ∧ Credit.holdStored q account = .ok held ∧
      (Storable held → held.balanceUsd ≤ account.balanceUsd ∧ 0 ≤ q)

-- What the database and the admins of the service see to: prices are not negative, markup rates
-- are at most 500%, and the balance has six decimals.
structure Env.Priced (env : Env) : Prop where
  prices  : ∀ m ∈ env.models, m.isActive → 0 ≤ m.inputPricePer1m ∧ 0 ≤ m.outputPricePer1m
  markups : ∀ modelId providerId r, env.markupRate modelId providerId = .ok r → 0 ≤ r ∧ r ≤ 5
  balance : ∀ account ∈ env.account, Fits 6 account.balanceUsd

variable {env : Env} {body : Json.Fields} {endpoint : Except Error Endpoint}
  {f : Model × ℚ → Handler Response} {model : Model} {markupRate q : ℚ}

-- The account covers the amount, and the new balance can be stored.
def Holds (env : Env) (q : ℚ) : Prop :=
  ∃ account, env.account = some account ∧ q ≤ account.balanceUsd ∧
    |quantize 6 (account.balanceUsd - q)| < 10 ^ 6

theorem holds_iff : Holds env q ↔ ∃ account held, env.account = some account ∧
    Credit.holdStored q account = .ok held ∧ Storable held := by
  constructor
  case mp =>
    intro ⟨account, ha, hl, hs⟩
    have ⟨held, hh⟩ := Credit.holdStored_of_le hl
    refine ⟨account, held, ha, hh, ?_⟩
    rwa [Storable, (Credit.holdStored_eq_ok hh).right]
  case mpr =>
    intro ⟨account, held, ha, hh, hs⟩
    have ⟨hl, hq⟩ := Credit.holdStored_eq_ok hh
    rw [Storable, hq] at hs
    exact ⟨account, ha, hl, hs⟩

theorem Covers.exists_holdStored (h : Covers env body endpoint model markupRate q) :
    ∃ account held, env.account = some account ∧ Credit.holdStored q account = .ok held := by
  have ⟨new, hc⟩ := h.covered
  have ⟨account, ha, _⟩ := Credit.holdCredit_ok hc
  rw [ha] at hc
  exact ⟨account, new.store, ha, by rw [Credit.holdStored, hc]; rfl⟩

theorem Holds.covered (h : Holds env q) : ∃ new, Credit.holdCredit env.account q = .ok new := by
  have ⟨account, ha, hl, _⟩ := h
  rw [ha]
  exact ⟨_, if_neg (not_lt.mpr hl)⟩

-- A hold of an amount that is not negative is not rounded to more than there has been before.
theorem holdStored_le {account held : CreditAccount} (hf : Fits 6 account.balanceUsd)
    (h : Credit.holdStored q account = .ok held) (hq : 0 ≤ q) :
    held.balanceUsd ≤ account.balanceUsd := by
  rw [(Credit.holdStored_eq_ok h).right]
  calc
    _ ≤ quantize 6 account.balanceUsd := quantize_mono (sub_le_self _ hq)
    _ = account.balanceUsd            := quantize_eq_self hf

theorem neverRaises_prepare_iff (hf : ∀ account ∈ env.account, Fits 6 account.balanceUsd) :
    NeverRaises env (prepare env body endpoint >>= f) ↔
      ∀ model markupRate q, Covers env body endpoint model markupRate q → Holds env q → 0 ≤ q := by
  cases prepare_covers_cases env body endpoint
  case inl h =>
    have ⟨ht, ⟨e, hr⟩, hn⟩ := h
    refine iff_of_true (.inl ⟨?_, e, Traced.result_bind_of_error hr⟩) ?_
    · rw [Traced.trace_bind_of_error hr, ht]
    · exact fun model markupRate q h => absurd h (hn model markupRate q)
  case inr h =>
    have ⟨model, markupRate, q, _, hc, hr, ht⟩ := h
    rw [NeverRaises, Traced.trace_bind_of_ok hr, ht]
    constructor
    case mp =>
      rintro (⟨he, _⟩ | ⟨q', rest, account, held, he, ha, hh, hq⟩) _ _ _ hc' hs
      · contradiction
      · cases he
        cases hc.unique hc'
        obtain ⟨_, _, ha', hh', hs⟩ := holds_iff.mp hs
        cases ha.symm.trans ha'
        cases hh.symm.trans hh'
        exact (hq hs).right
    case mpr =>
      intro h
      have ⟨account, held, ha, hh⟩ := hc.exists_holdStored
      refine .inr ⟨q, _, account, held, rfl, ha, hh, fun hs => ?_⟩
      have hq := h _ _ _ hc (holds_iff.mpr ⟨account, held, ha, hh, hs⟩)
      exact ⟨holdStored_le (hf account ha) hh hq, hq⟩

theorem estimatedCost_nonneg_iff {e : Endpoint} (hp : 0 ≤ model.outputPricePer1m)
    (hm : 0 ≤ markupRate) :
    0 ≤ e.estimatedCost model markupRate ↔ 0 ≤ e.maxTokens ∨ model.outputPricePer1m = 0 := by
  have hr : 0 < 1 + markupRate := by linarith
  rw [Endpoint.estimatedCost, Credit.estimateMaxCost, mul_nonneg_iff_of_pos_right hr]
  by_cases hz : model.outputPricePer1m = 0
  case pos => simp [hz]
  case neg =>
    have hp : 0 < model.outputPricePer1m := lt_of_le_of_ne hp (Ne.symm hz)
    rw [mul_nonneg_iff_of_pos_right hp, le_div_iff₀ (by norm_num), zero_mul, or_iff_left hz]

-- A body that is accepted with a negative count of tokens, for a model that is not free.
structure Credits (env : Env) (body : Json.Fields) (model : Model) (markupRate count : ℚ) :
    Prop where
  found    : (findModel env body).result = .ok model
  resolved : env.markupRate model.id model.providerId = .ok markupRate
  parsed   : maxTokens env body = .ok count
  negative : count < 0
  priced   : model.outputPricePer1m ≠ 0
  holds    : Holds env ((Endpoint.chat count).estimatedCost model markupRate)

theorem Credits.covers (h : Credits env body model markupRate count) :
    Covers env body (Endpoint.chat <$> maxTokens env body) model markupRate
      ((Endpoint.chat count).estimatedCost model markupRate) where
  found    := h.found
  resolved := h.resolved
  estimate := ⟨.chat count, by rw [h.parsed]; rfl, rfl⟩
  covered  := h.holds.covered

theorem Covers.signs (h : Covers env body endpoint model markupRate q) (hp : env.Priced) :
    0 ≤ model.outputPricePer1m ∧ 0 ≤ markupRate := by
  have ⟨modelName, _, hm⟩ := requests_of_findModel h.found
  have ha := List.mem_filter.mp (hm ▸ List.mem_singleton_self model)
  simp only [decide_eq_true_eq] at ha
  exact ⟨(hp.prices model ha.left ha.right.right).right, (hp.markups _ _ _ h.resolved).left⟩

theorem neverRaises_embeddings (hp : env.Priced) : NeverRaises env (embeddings env body) := by
  refine (neverRaises_prepare_iff hp.balance).mpr fun model markupRate q h _ => ?_
  have ⟨hs, hm⟩ := h.signs hp
  have ⟨e, he, hq⟩ := h.estimate
  cases he
  rw [hq, estimatedCost_nonneg_iff hs hm]
  exact .inl (Nat.cast_nonneg _)

theorem neverRaises_chatCompletions_iff (hp : env.Priced) :
    NeverRaises env (chatCompletions env body) ↔
      ∀ model markupRate count, ¬Credits env body model markupRate count := by
  refine (neverRaises_prepare_iff hp.balance).trans ⟨?_, ?_⟩
  case refine_1 =>
    intro h model markupRate count hc
    have ⟨hs, hm⟩ := hc.covers.signs hp
    have hq := h model markupRate _ hc.covers hc.holds
    cases (estimatedCost_nonneg_iff hs hm).mp hq
    case inl hn => exact hn.not_gt hc.negative
    case inr hz => exact hc.priced hz
  case refine_2 =>
    intro h model markupRate q hc hh
    have ⟨hs, hm⟩ := hc.signs hp
    have ⟨e, he, hq⟩ := hc.estimate
    cases ht : maxTokens env body <;> rw [ht] at he
    case error    => contradiction
    case ok count =>
      cases he
      subst hq
      by_contra hn
      have ⟨hl, hz⟩ := not_or.mp ((estimatedCost_nonneg_iff hs hm).not.mp hn)
      exact h model markupRate count ⟨hc.found, hc.resolved, ht, not_le.mp hl, hz, hh⟩

-- No request for embeddings raises a balance by its hold, and a chat does so only with a negative
-- count of tokens.
theorem neverRaises_iff (env : Env) (body : Json.Fields) (hp : env.Priced) :
    NeverRaises env (embeddings env body) ∧
      (NeverRaises env (chatCompletions env body) ↔
        ∀ model markupRate count, ¬Credits env body model markupRate count) :=
  ⟨neverRaises_embeddings hp, neverRaises_chatCompletions_iff hp⟩

theorem Env.answering_priced (response : Json.Fields) : (Env.answering response).Priced where
  prices  := by
    intro m hm _
    cases List.mem_singleton.mp hm
    decide +kernel
  markups := by
    intro _ _ _ hr
    cases hr
    decide +kernel
  balance := by
    intro account ha
    cases ha
    exact ⟨1000000, by norm_num⟩

def countedBody (maxTokens : Int) : Json.Fields :=
  [("model", .str "m"), ("max_tokens", .int maxTokens)]

-- The estimate for -1000000 tokens at $1 per million and 20% markup is -$1.20.
theorem not_neverRaises_of_negative :
    ¬∀ (env : Env) (body : Json.Fields), env.Priced →
      NeverRaises env (embeddings env body) ∧ NeverRaises env (chatCompletions env body) := by
  intro h
  have hp := Env.answering_priced []
  have hc := (neverRaises_chatCompletions_iff hp).mp (h _ (countedBody (-1000000)) hp).right
  refine hc ⟨1, 1, "m", 1, 1, none, true⟩ (1 / 5) (-1000000) {
    found    := rfl
    resolved := rfl
    parsed   := ?_
    negative := by decide +kernel
    priced   := by decide +kernel
    holds    := ⟨_, rfl, by decide +kernel, by decide +kernel⟩ }
  simp only [maxTokens, Env.answering]
  decide +kernel

theorem neverRaises_of_positive :
    let env := Env.answering []
    NeverRaises env (embeddings env (countedBody 1)) ∧
      NeverRaises env (chatCompletions env (countedBody 1)) := by
  intro env
  have h := neverRaises_iff env (countedBody 1) (Env.answering_priced [])
  refine ⟨h.left, h.right.mpr fun model markupRate count hc => ?_⟩
  have ht : maxTokens env (countedBody 1) = .ok 1 := by
    simp only [env, maxTokens, Env.answering]
    decide +kernel
  cases ht.symm.trans hc.parsed
  exact absurd hc.negative (by decide)

end Gateway
