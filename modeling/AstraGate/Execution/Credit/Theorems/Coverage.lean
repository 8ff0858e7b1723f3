import AstraGate.Api.Gateway.Handler
import AstraGate.Execution.Credit.Theorems.Refinement
import AstraGate.Services.PostProcess
import Mathlib.Algebra.Order.Archimedean.Basic
import Mathlib.Data.Rat.Floor
import Mathlib.Tactic.Linarith

namespace Credit

-- What the hold and the bill of a request are computed from: the model that the body names and the
-- model that has served the request, which are two after a fallback, and the tokens it has used.
structure Call where
  endpoint         : Gateway.Endpoint
  requested        : Model
  used             : Model
  markupRate       : ℚ
  promptTokens     : Nat
  completionTokens : Nat

namespace Call

def heldAmount (c : Call) : ℚ :=
  c.endpoint.estimatedCost c.requested c.markupRate

def billedAmount (c : Call) : ℚ :=
  PostProcess.billedAmount
    (PostProcess.computeBaseCost c.promptTokens c.completionTokens
      c.used.inputPricePer1m c.used.outputPricePer1m)
    c.markupRate

-- Prices are non-negative, a markup is at most 500 %, and no more tokens are completed than have
-- been asked for.
structure Valid (c : Call) : Prop where
  requestedOutput : 0 ≤ c.requested.outputPricePer1m
  usedInput       : 0 ≤ c.used.inputPricePer1m
  usedOutput      : 0 ≤ c.used.outputPricePer1m
  markup          : 0 ≤ c.markupRate ∧ c.markupRate ≤ 5
  completion      :
    match c.endpoint with
    | .chat maxTokens => (c.completionTokens : ℚ) ≤ maxTokens
    | .embeddings _   => c.completionTokens = 0

-- The tokens that were used, at the prices of the model that has served the request, cost no more
-- than the tokens of the estimate, at the output price of the model that was requested.
def Covered (c : Call) : Prop :=
  c.promptTokens * c.used.inputPricePer1m + c.completionTokens * c.used.outputPricePer1m ≤
    c.endpoint.maxTokens * c.requested.outputPricePer1m

theorem billedAmount_le_heldAmount_iff_covered {c : Call} (h : c.Valid) :
    c.billedAmount ≤ c.heldAmount ↔ c.Covered := by
  have hm : 0 < (1 + c.markupRate) / 1000000 := by linarith [h.markup.left]
  have hb : c.billedAmount =
      (c.promptTokens * c.used.inputPricePer1m + c.completionTokens * c.used.outputPricePer1m) *
        ((1 + c.markupRate) / 1000000) := by
    simp only [billedAmount, PostProcess.billedAmount, PostProcess.computeBaseCost,
      Int.cast_natCast]
    ring
  have hh : c.heldAmount =
      c.endpoint.maxTokens * c.requested.outputPricePer1m * ((1 + c.markupRate) / 1000000) := by
    simp only [heldAmount, Gateway.Endpoint.estimatedCost, estimateMaxCost]
    ring
  rw [hb, hh]
  exact mul_le_mul_iff_left₀ hm

def withTokens (c : Call) (promptTokens completionTokens : Nat) : Call :=
  { c with promptTokens, completionTokens }

-- The most tokens that a request can get completed.
def maxCompletion (c : Call) : Nat :=
  match c.endpoint with
  | .chat maxTokens => ⌊maxTokens⌋₊
  | .embeddings _   => 0

theorem Valid.maxTokens_nonneg {c : Call} (h : c.Valid) : 0 ≤ c.endpoint.maxTokens := by
  have hn : (0 : ℚ) ≤ c.completionTokens := Nat.cast_nonneg _
  have hc := h.completion
  cases he : c.endpoint <;> simp only [he] at hc
  case chat m       => exact hn.trans hc
  case embeddings t => exact Nat.cast_nonneg (α := ℚ) (max 1 (t.length / 4))

theorem Valid.withTokens_iff {c : Call} (h : c.Valid) :
    (c.withTokens p n).Valid ↔ n ≤ c.maxCompletion := by
  have hm := h.maxTokens_nonneg
  constructor
  case mp =>
    intro hv
    have hc := hv.completion
    cases he : c.endpoint <;> simp only [withTokens, maxCompletion, he] at hc ⊢
    case chat m       => exact Nat.le_floor hc
    case embeddings t => exact hc.le
  case mpr =>
    intro hn
    refine ⟨h.requestedOutput, h.usedInput, h.usedOutput, h.markup, ?_⟩
    cases he : c.endpoint <;> simp only [withTokens, maxCompletion, he] at hn hm ⊢
    case chat m       => exact (Nat.le_floor_iff hm).mp hn
    case embeddings t => exact Nat.le_zero.mp hn

-- What a request has to do with to be covered whatever tokens it uses.
def AlwaysCovered (c : Call) : Prop :=
  c.used.inputPricePer1m = 0 ∧
    c.maxCompletion * c.used.outputPricePer1m ≤
      c.endpoint.maxTokens * c.requested.outputPricePer1m

theorem forall_covered_iff_alwaysCovered {c : Call} (h : c.Valid) :
    (∀ p n, (c.withTokens p n).Valid → (c.withTokens p n).Covered) ↔ c.AlwaysCovered := by
  simp only [h.withTokens_iff]
  constructor
  case mp =>
    intro hc
    constructor
    case left =>
      by_contra hn
      have hi : 0 < c.used.inputPricePer1m := lt_of_le_of_ne h.usedInput (Ne.symm hn)
      have ⟨p, hp⟩ := exists_nat_gt
        (c.endpoint.maxTokens * c.requested.outputPricePer1m / c.used.inputPricePer1m)
      have hp := (div_lt_iff₀ hi).mp hp
      have hc := hc p 0 (Nat.zero_le _)
      simp only [Covered, withTokens, Nat.cast_zero, zero_mul, add_zero] at hc
      exact hp.not_ge hc
    case right =>
      have hc := hc 0 c.maxCompletion le_rfl
      simpa [Covered, withTokens] using hc
  case mpr =>
    intro ⟨hi, ho⟩ p n hn
    have hn : (n : ℚ) * c.used.outputPricePer1m ≤ c.maxCompletion * c.used.outputPricePer1m :=
      mul_le_mul_of_nonneg_right (Nat.cast_le.mpr hn) h.usedOutput
    simpa [Covered, withTokens, hi] using hn.trans ho

theorem Valid.heldAmount_nonneg {c : Call} (h : c.Valid) : 0 ≤ c.heldAmount := by
  have hb : 0 ≤ c.endpoint.maxTokens / 1000000 * c.requested.outputPricePer1m :=
    mul_nonneg (div_nonneg h.maxTokens_nonneg (by norm_num)) h.requestedOutput
  exact mul_nonneg hb (by linarith [h.markup.left])

end Call

variable {calls : RequestId → Call}

-- The amounts of a run come from the handlers: a request holds its estimate and is charged its
-- bill, and what is paid in is not negative.
def Step.Priced (calls : RequestId → Call) (e : Step s s') : Prop :=
  match e with
  | hold r _ amount ..                   => amount = (calls r).heldAmount
  | commit r _ (.settle actualCost _) .. => actualCost = (calls r).billedAmount
  | commitTopup _ _ _ amount ..          => 0 ≤ amount
  | _                                    => True

def Step.Covered (calls : RequestId → Call) (e : Step s s') : Prop :=
  match e with
  | commit r _ (.settle _ _) .. => (calls r).Covered
  | _                           => True

def Task.Priced (c : Call) : Task → Prop
  | holding q | stored q | held q | looked q .. | adjusted q .. | cleaned q .. =>
    q.amount = c.heldAmount
  | _ => True

def State.Priced (calls : RequestId → Call) (s : State) : Prop :=
  ∀ r, (s.tasks r).Priced (calls r)

theorem Step.preserves_priced (e : Step s s') (h : s.Priced calls) (he : e.Priced calls) :
    s'.Priced calls := by
  cases e
  case tick               => exact h
  case signup             => exact h
  case refuse task _ _    => exact State.forall_of_update h task rfl (fun _ => trivial)
  case hold task _ _      => exact State.forall_of_update h task rfl (fun _ => he)
  case set task           => exact State.forall_of_update h task rfl id
  case commitHold task _  => exact State.forall_of_update h task rfl id
  case get task           => exact State.forall_of_update h task rfl id
  case skip task _        => exact State.forall_of_update h task rfl (fun _ => trivial)
  case select task _ _ _  => exact State.forall_of_update h task rfl id
  case delete task        => exact State.forall_of_update h task rfl id
  case commit task _      => exact State.forall_of_update h task rfl (fun _ => trivial)
  case topup task _ _ _   => exact State.forall_of_update h task rfl (fun _ => trivial)
  case commitTopup task _ => exact State.forall_of_update h task rfl (fun _ => trivial)
  case abort              => exact State.forall_of_update h rfl rfl (fun _ => trivial)

theorem Step.sound_of_priced (e : Step s s') (hv : ∀ r, (calls r).Valid) (h : s.Priced calls)
    (he : e.Priced calls) (hc : e.Covered calls) : e.Sound := by
  cases e <;> try trivial
  case commit r q how l txs account task locked =>
    have ht := h r
    rw [task] at ht
    cases how
    case settle actualCost _ =>
      have hb := (Call.billedAmount_le_heldAmount_iff_covered (hv r)).mpr hc
      exact he.trans_le (hb.trans_eq ht.symm)
    case release => exact (hv r).heldAmount_nonneg.trans_eq ht.symm

-- The bill of a request stays within its hold exactly if the request is covered, and the bills for
-- all tokens that it may use do so exactly if its input is free and its output not dearer than
-- estimated. In a run that loses no hold and settles covered requests only, no balance gets
-- negative.
theorem hold_covers_bill_iff {calls : RequestId → Call} (hv : ∀ r, (calls r).Valid) :
    (∀ r, (calls r).billedAmount ≤ (calls r).heldAmount ↔ (calls r).Covered) ∧
    (∀ r, (∀ p n, ((calls r).withTokens p n).Valid →
        ((calls r).withTokens p n).billedAmount ≤ ((calls r).withTokens p n).heldAmount) ↔
      (calls r).AlwaysCovered) ∧
    ∀ (s₁ s₂ : State) (es : Run s₁ s₂), s₁.Initial → (∀ u, 0 ≤ s₁.balance u) →
      es.All Step.Kept → es.All (Step.Priced calls) → es.All (Step.Covered calls) →
      ∀ u, 0 ≤ s₂.balance u := by
  refine ⟨fun r => Call.billedAmount_le_heldAmount_iff_covered (hv r), fun r => ?_, ?_⟩
  case refine_1 =>
    rw [← Call.forall_covered_iff_alwaysCovered (hv r)]
    exact forall₃_congr fun p n hv => Call.billedAmount_le_heldAmount_iff_covered hv
  case refine_2 =>
    intro s₁ s₂ es h hb hk hp hc
    have h₁ : s₁.Priced calls := fun r => h.fresh r ▸ trivial
    have hs : es.All Step.Sound :=
      es.all_of_invariant (fun e h hp => e.preserves_priced h hp.left)
        (fun e h hp => e.sound_of_priced hv h hp.left hp.right) h₁
        (Steps.all_and.mpr ⟨hp, hc⟩)
    exact es.balance_nonneg h hb hk hs

-- A chat of a million input tokens and one output token, at $1 per million of either.
theorem not_billedAmount_le_heldAmount :
    ¬∀ c : Call, c.Valid → c.billedAmount ≤ c.heldAmount := by
  intro h
  let m : Model := ⟨1, 1, "m", 1, 1, none, true⟩
  have hb := h ⟨.chat 1, m, m, 1/5, 1000000, 1⟩
    ⟨by decide +kernel, by decide +kernel, by decide +kernel, by decide +kernel,
      by decide +kernel⟩
  revert hb
  decide +kernel

theorem hold_covers_bill_of_free_input :
    let m : Model := ⟨1, 1, "m", 0, 10, none, true⟩
    let c : Call := ⟨.chat 1000, m, m, 1/5, 700, 500⟩
    c.billedAmount ≤ c.heldAmount := by
  intro m c
  have hv : c.Valid :=
    ⟨by decide +kernel, by decide +kernel, by decide +kernel, by decide +kernel,
      by decide +kernel⟩
  exact ((hold_covers_bill_iff fun _ => hv).left 0).mpr (by unfold Call.Covered; decide +kernel)

end Credit
