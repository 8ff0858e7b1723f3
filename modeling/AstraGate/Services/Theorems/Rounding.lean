import AstraGate.Models.Usage
import AstraGate.Services.Credit

open Numeric

namespace Credit

-- Sessions that load the stored row, and store what `hold_credit`, `release_hold` or
-- `settle_credit` makes of it.
def holdStored (amount : ℚ) (account : CreditAccount) :
    Except InsufficientCreditError CreditAccount :=
  holdCredit (some account) amount |>.map CreditAccount.store

def releaseStored (heldAmount : Option ℚ) (account : CreditAccount) : Option CreditAccount :=
  match heldAmount with
  | some heldAmount => releaseHold heldAmount (some account) |>.map CreditAccount.store
  | none            => some account

def settleStored (userId : UUID) (actualCost : ℚ) (usageRecordId : Option UUID)
    (heldAmount : Option ℚ) (account : CreditAccount) :
    Option CreditAccount × List CreditTransaction :=
  settleCredit userId actualCost usageRecordId heldAmount (some account)
    |>.map (Option.map CreditAccount.store) (List.map CreditTransaction.store)

variable {account held : CreditAccount} {amount actualCost : ℚ} {userId : UUID}
  {usageRecordId : Option UUID}

-- Until it expires, the key has the amount as it was passed to `hold_credit`.
theorem getHoldAmount_holdKey {setAt getAt : Time} (h : getAt < setAt + redisHoldTtl) :
    getHoldAmount (some <| holdKey userId amount setAt) getAt true = some amount := by
  simp [getHoldAmount, holdKey, h]

theorem holdStored_eq_ok (h : holdStored amount account = .ok held) :
    amount ≤ account.balanceUsd ∧
      held.balanceUsd = quantize 6 (account.balanceUsd - amount) := by
  unfold holdStored at h
  cases hc : holdCredit (some account) amount <;> rw [hc] at h
  case error  => contradiction
  case ok new =>
    have ⟨b, hb, hl, hn⟩ := holdCredit_ok hc
    cases hb
    cases h
    refine ⟨hl, ?_⟩
    rw [CreditAccount.store, hn]

theorem holdStored_of_le (h : amount ≤ account.balanceUsd) :
    ∃ held, holdStored amount account = .ok held := by
  refine ⟨CreditAccount.store { account with balanceUsd := account.balanceUsd - amount }, ?_⟩
  rw [holdStored, holdCredit, if_neg (not_lt.mpr h)]
  rfl

theorem holdStored_drift (hf : Fits 6 account.balanceUsd)
    (h : holdStored amount account = .ok held) :
    held.balanceUsd = account.balanceUsd - amount + drift 6 amount := by
  have ⟨hl, hq⟩ := holdStored_eq_ok h
  rw [hq, quantize_sub hf hl]

-- A hold that is released is exact if and only if its rounding is undone.
theorem releaseStored_eq_iff (hf : Fits 6 account.balanceUsd)
    (h : holdStored amount account = .ok held) :
    (∃ released, releaseStored (some amount) held = some released ∧
      released.balanceUsd = account.balanceUsd) ↔
      ¬Halfway 6 amount ∨ account.balanceUsd < 0 := by
  have hb : held.balanceUsd + amount = account.balanceUsd + drift 6 amount := by
    rw [holdStored_drift hf h]
    ring
  rw [← absorbs_drift_iff, ← quantize_add_eq_iff hf, ← hb]
  constructor
  case mpr => exact fun he => ⟨_, rfl, he⟩
  case mp  =>
    intro ⟨_, hr, he⟩
    cases hr
    exact he

-- The rounding of the hold and that of the row in the ledger have to be undone together.
theorem settleStored_eq_iff (hf : Fits 6 account.balanceUsd)
    (h : holdStored amount account = .ok held) :
    (∃ settled tx,
      settleStored userId actualCost usageRecordId (some amount) held = (some settled, [tx]) ∧
        settled.balanceUsd - account.balanceUsd = tx.amountUsd) ↔
      Absorbs 6 (account.balanceUsd + quantize 6 (-actualCost))
        (drift 6 amount + (-actualCost - quantize 6 (-actualCost))) := by
  have hb : held.balanceUsd + (amount - actualCost) =
      account.balanceUsd + quantize 6 (-actualCost) +
        (drift 6 amount + (-actualCost - quantize 6 (-actualCost))) := by
    rw [holdStored_drift hf h]
    ring
  rw [← quantize_add_eq_iff (hf.add (fits_quantize 6 _)), ← hb, ← sub_eq_iff_eq_add']
  constructor
  case mpr => exact fun he => ⟨_, _, rfl, he⟩
  case mp  =>
    intro ⟨_, _, hs, he⟩
    cases hs
    exact he

-- Under which conditions a hold and its release or settlement are exact, in sessions of their own.
theorem exact_iff_absorbs {account held : CreditAccount} {setAt getAt : Time} (userId : UUID)
    (inputPrice outputPrice maxTokens markupRate actualCost : ℚ) (usageRecordId : Option UUID)
    (hf : Fits 6 account.balanceUsd) (ht : getAt < setAt + redisHoldTtl)
    (hh : holdStored (estimateMaxCost inputPrice outputPrice maxTokens markupRate) account =
      .ok held) :
    let estimate := estimateMaxCost inputPrice outputPrice maxTokens markupRate
    let heldAmount := getHoldAmount (some <| holdKey userId estimate setAt) getAt true
    let amountUsd := quantize 6 (-actualCost)
    (∃ released, releaseStored heldAmount held = some released ∧
        released.balanceUsd = account.balanceUsd) ∧
      (∃ settled tx,
        settleStored userId actualCost usageRecordId heldAmount held = (some settled, [tx]) ∧
          settled.balanceUsd - account.balanceUsd = tx.amountUsd) ↔
    (¬Halfway 6 estimate ∨ account.balanceUsd < 0) ∧
      Absorbs 6 (account.balanceUsd + amountUsd)
        (drift 6 estimate + (-actualCost - amountUsd)) := by
  intro estimate heldAmount amountUsd
  have ha : heldAmount = some estimate := getHoldAmount_holdKey ht
  rw [ha]
  exact and_congr (releaseStored_eq_iff hf hh) (settleStored_eq_iff hf hh)

-- One token at $1.25 per million and 20% markup: the estimate is $0.0000015.
theorem not_exact_of_halfway :
    ¬∀ (account held : CreditAccount) (setAt getAt : Time) (userId : UUID)
      (inputPrice outputPrice maxTokens markupRate actualCost : ℚ) (usageRecordId : Option UUID),
      Fits 6 account.balanceUsd → getAt < setAt + redisHoldTtl →
      holdStored (estimateMaxCost inputPrice outputPrice maxTokens markupRate) account =
        .ok held →
      let heldAmount := getHoldAmount (some <| holdKey userId
        (estimateMaxCost inputPrice outputPrice maxTokens markupRate) setAt) getAt true
      (∃ released, releaseStored heldAmount held = some released ∧
          released.balanceUsd = account.balanceUsd) ∧
        ∃ settled tx,
          settleStored userId actualCost usageRecordId heldAmount held = (some settled, [tx]) ∧
            settled.balanceUsd - account.balanceUsd = tx.amountUsd := by
  intro h
  let held : CreditAccount := ⟨9999999 / 1000000, none, none, none⟩
  obtain ⟨released, hr, hb⟩ := (h ⟨10, none, none, none⟩ held 0 1 1 1 (5 / 4) 1 (1 / 5) 0 none
    ⟨10000000, by norm_num⟩ (by decide) (by decide +kernel)).left
  have he : releaseStored (getHoldAmount (some <| holdKey 1 (estimateMaxCost 1 (5 / 4) 1 (1 / 5)) 0)
      1 true) held = some ⟨10000001 / 1000000, none, none, none⟩ := by
    decide +kernel
  cases he.symm.trans hr
  revert hb
  decide +kernel

-- One token at $1 per million and 20% markup, billed as it was estimated.
theorem exact_of_absorbs :
    let account : CreditAccount := ⟨10, none, none, none⟩
    let held : CreditAccount := ⟨9999999 / 1000000, none, none, none⟩
    let heldAmount := getHoldAmount (some <| holdKey 1 (estimateMaxCost 1 1 1 (1 / 5)) 0) 1 true
    holdStored (estimateMaxCost 1 1 1 (1 / 5)) account = .ok held ∧
      (∃ released, releaseStored heldAmount held = some released ∧
        released.balanceUsd = account.balanceUsd) ∧
      ∃ settled tx, settleStored 1 (12 / 10000000) none heldAmount held = (some settled, [tx]) ∧
        settled.balanceUsd - account.balanceUsd = tx.amountUsd := by
  intro account held heldAmount
  have hh : holdStored (estimateMaxCost 1 1 1 (1 / 5)) account = .ok held := by decide +kernel
  have hn : ¬Halfway 6 (estimateMaxCost 1 1 1 (1 / 5)) :=
    drift_eq_halfUnit_iff.not.mp (by decide +kernel)
  have ha : |drift 6 (estimateMaxCost 1 1 1 (1 / 5)) +
      (-(12 / 10000000) - quantize 6 (-(12 / 10000000)))| < halfUnit (K := ℚ) 6 := by
    decide +kernel
  have hf : Fits 6 account.balanceUsd := ⟨10000000, by norm_num [account]⟩
  exact ⟨hh, (exact_iff_absorbs 1 1 1 1 (1 / 5) (12 / 10000000) none hf (by decide) hh).mpr
    ⟨.inl hn, .inl ha⟩⟩

end Credit
