import AstraGate.Api.Theorems.Forwarding

namespace PostProcess

-- The response costs nothing at the prices of `model`.
def Free (intOf : Json.IntOf) (model : Model) (response : Json.Fields) : Prop :=
  detectCacheHit response ∨ ∃ tokens, extractUsage intOf response = .ok tokens ∧
    computeBaseCost tokens.promptTokens tokens.completionTokens
      model.inputPricePer1m model.outputPricePer1m = 0

theorem billedAmount_eq_iff (h : bill intOf model markupRate response = .ok b) :
    b.billedAmount = b.baseCost * (1 + r) ↔ Free intOf model response ∨ markupRate = r := by
  have ⟨tokens, ht, hb⟩ := bill_ok_iff.mp h
  cases hc : detectCacheHit response
  case true  => simp [hb, hc, Free]
  case false =>
    simp only [hc, Bool.false_eq_true, if_false] at hb
    simp [hb, billedAmount, Free, hc, ht, or_comm]

end PostProcess

namespace Gateway

-- Post-processing finds the model that a request is recorded with, and bills it.
structure Records (env : Env) (intOf : Json.IntOf) (args : PostProcess.Arguments) (model : Model)
    (bill : PostProcess.Bill) : Prop where
  found  : env.models.find? (·.id = args.modelId) = some model
  billed : PostProcess.bill intOf model args.markupRate args.litellmResponse = .ok bill

variable {env : Env} {body : Json.Fields} {args : PostProcess.Arguments} {r : ℚ}

-- What is handed over to post-processing has the markup of the model that has been asked for.
theorem Serving.markupRate_eq_iff (hs : Serving env body es) (ht : .addTask args ∈ es) :
    args.markupRate = r ↔
      ∀ model, Requests env body model → env.markupRate model.id model.providerId = .ok r := by
  cases hs.silent_or_served
  case inl hq => exact absurd (hq _ ht) id
  case inr h =>
    have ⟨model, markupRate, provider, inputText, h⟩ := h
    have ⟨response, he⟩ := h.follows _ ht
    have hm : args.markupRate = markupRate := by rw [he]; rfl
    rw [hm]
    constructor
    case mp =>
      intro hr model' hm
      cases h.requests.unique hm
      exact hr ▸ h.resolved
    case mpr => exact fun hr => Except.ok.inj <| h.resolved.symm.trans (hr model h.requests)

-- A request is billed at the markup of the model that it is recorded with if and only if it is
-- free, or the model that has been asked for has the same markup.
theorem billedAmount_eq_markup_iff {configs : List MarkupConfig}
    (he : env.markupRate = Markup.resolveFromDb env.models configs)
    (hs : Serving env body es) (ht : .addTask args ∈ es) (hb : Records env intOf args model bill)
    (hr : Markup.resolveFromDb env.models configs model.id model.providerId = .ok r) :
    bill.billedAmount = bill.baseCost * (1 + r) ↔
      PostProcess.Free intOf model args.litellmResponse ∨ ∀ requested, Requests env body requested →
        Markup.resolveFromDb env.models configs requested.id requested.providerId =
          Markup.resolveFromDb env.models configs model.id model.providerId := by
  rw [PostProcess.billedAmount_eq_iff hb.billed, hs.markupRate_eq_iff ht, he, hr]

-- A request for "m" that is answered with a million tokens by the fallback, whose model "n" has the
-- same prices and a rate of its own.
def Env.marked (markupRate : Option ℚ) : Env :=
  .fallingBack [⟨2, 2, "n", 1, 1, markupRate, true⟩]
    [("usage", .dict [("prompt_tokens", .int 1000000)])]

def intOfNone : Json.IntOf :=
  ⟨fun _ => .error .valueError, fun _ => .error .valueError⟩

theorem Env.marked_records (markupRate : Option ℚ) :
    ∃ args, .addTask args ∈ (embeddings (Env.marked markupRate) [("model", .str "m")]).trace ∧
      Records (Env.marked markupRate) intOfNone args ⟨2, 2, "n", 1, 1, markupRate, true⟩
        ⟨⟨1000000, 0, 1000000⟩, false, 1, 6 / 5⟩ := by
  let env := Env.marked markupRate
  let body : Json.Fields := [("model", .str "m")]
  let requested : Model := ⟨1, 1, "m", 1, 1, none, true⟩
  let fallback : ProviderBalance.ProviderStatus := ⟨2, "groq", .normal, 50, 10, 2, none, true⟩
  let routed := approved env body requested (1 / 5) (embeddingsText env body) fallback
  have hl : ¬(1 : ℚ) <
      (Endpoint.embeddings "").estimatedCost ⟨1, 1, "m", 1, 1, none, true⟩ (1 / 5) := by
    decide +kernel
  have hc : Credit.holdCredit env.account
      ((Endpoint.embeddings (embeddingsText env body)).estimatedCost requested (1 / 5)) = .ok _ :=
    if_neg hl
  have ht : .addTask (task env routed [("usage", .dict [("prompt_tokens", .int 1000000)])]) ∈
      (embeddings env body).trace :=
    addTask_mem_embeddings rfl rfl hc ⟨rfl, rfl⟩ rfl
  have hb : (⟨⟨1000000, 0, 1000000⟩, false, 1, 6 / 5⟩ : PostProcess.Bill) =
      ⟨⟨1000000, 0, 1000000⟩, false, PostProcess.computeBaseCost 1000000 0 1 1,
        PostProcess.billedAmount (PostProcess.computeBaseCost 1000000 0 1 1) (1 / 5)⟩ := by
    decide +kernel
  exact ⟨_, ht, rfl, PostProcess.bill_ok_iff.mpr ⟨_, rfl, hb⟩⟩

-- The rate of the fallback's model is 0.50.
theorem not_billedAmount_eq_of_fallback_rate :
    ¬∀ (env : Env) (body : Json.Fields) (es : List Effect) (args : PostProcess.Arguments)
      (intOf : Json.IntOf) (model : Model) (bill : PostProcess.Bill) (configs : List MarkupConfig)
      (r : ℚ), env.markupRate = Markup.resolveFromDb env.models configs →
      Serving env body es → .addTask args ∈ es → Records env intOf args model bill →
      Markup.resolveFromDb env.models configs model.id model.providerId = .ok r →
      bill.billedAmount = bill.baseCost * (1 + r) := by
  intro h
  have ⟨args, ht, hb⟩ := Env.marked_records (some (1 / 2))
  have hr := h _ _ _ args intOfNone _ _ [] (1 / 2) rfl .embeddings ht hb rfl
  exact absurd hr (by decide +kernel)

theorem billedAmount_eq_of_same_rate :
    let env := Env.marked none
    ∃ args bill, .addTask args ∈ (embeddings env [("model", .str "m")]).trace ∧
      Records env intOfNone args ⟨2, 2, "n", 1, 1, none, true⟩ bill ∧
      bill.billedAmount = bill.baseCost * (1 + 1 / 5) := by
  intro env
  have he : env.markupRate = Markup.resolveFromDb env.models [] := rfl
  have ⟨args, ht, hb⟩ := Env.marked_records none
  refine ⟨args, _, ht, hb, (billedAmount_eq_markup_iff he .embeddings ht hb rfl).mpr ?_⟩
  refine .inr fun requested hr => ?_
  cases Requests.unique ⟨"m", rfl, rfl⟩ hr
  rfl

end Gateway
