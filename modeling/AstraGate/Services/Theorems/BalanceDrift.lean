import AstraGate.Services.Theorems.ProviderBalance

namespace PostProcess

variable {id : UUID} {row : ProviderRow}

-- The row of a provider after successive transactions, each of which has loaded it anew.
def chargeAll (id : UUID) (cs : List Charge) (row : ProviderRow) : ProviderRow :=
  cs.foldl (fun row c => chargeProvider id c row) row

theorem chargeAll_balanceUsd (h : ∀ c ∈ cs, 0 ≤ c.baseCost) :
    (chargeAll id cs row).balanceUsd =
      Numeric.deduct 4 row.balanceUsd (cs.map Charge.baseCost) := by
  induction cs generalizing row
  case nil => rfl
  case cons c cs ih =>
    have hc : (chargeProvider id c row).balanceUsd = _ :=
      chargeProvider_balanceUsd (h c List.mem_cons_self)
    have hr : (chargeAll id cs (chargeProvider id c row)).balanceUsd = _ :=
      ih (fun c' hc' => h c' <| .tail c hc')
    rw [chargeAll, List.foldl_cons, List.map_cons, Numeric.deduct, List.foldl_cons, ← hc]
    exact hr

-- The stored balance of a provider stays with what has been charged to it exactly if no charge has
-- more decimals than the balance.
theorem abs_chargeAll_sub_lt_iff_fits {S : Set ℚ} (hS : ∀ d ∈ S, 0 ≤ d) :
    (∀ (row : ProviderRow) (cs : List Charge), (∀ c ∈ cs, c.baseCost ∈ S) →
      |(chargeAll id cs row).balanceUsd - (row.balanceUsd - (cs.map Charge.baseCost).sum)| <
        1 / 10000) ↔
    ∀ d ∈ S, Numeric.Fits 4 d := by
  rw [← Numeric.forall_abs_deduct_lt_iff hS]
  have hu : (1 : ℚ) / 10 ^ 4 = 1 / 10000 := by norm_num
  rw [hu]
  constructor
  case mp =>
    intro h x hx ds hd
    let cs := ds.map (fun d => Charge.mk 0 "" 0 d)
    let row : ProviderRow := {
      toProvider := ⟨"", x, 0, 0, .normal, none, none, none, true⟩
      balance    := hx
      warning    := ⟨0, by simp⟩
      hardStop   := ⟨0, by simp⟩ }
    have hc : cs.map Charge.baseCost = ds := by simp [cs, Function.comp_def]
    have hs : ∀ c ∈ cs, c.baseCost ∈ S := by
      intro c hc
      obtain ⟨d, hd', rfl⟩ := List.mem_map.mp hc
      exact hd d hd'
    have hl := h row cs hs
    rw [chargeAll_balanceUsd (fun c hc => hS _ (hs c hc)), hc] at hl
    exact hl
  case mpr =>
    intro h row cs hs
    rw [chargeAll_balanceUsd (fun c hc => hS _ (hs c hc))]
    refine h _ row.balance _ (fun d hd => ?_)
    obtain ⟨c, hc, rfl⟩ := List.mem_map.mp hd
    exact hs c hc

-- Three requests of 40 input tokens at $1 per million, each of which costs $0.00004.
theorem not_abs_chargeAll_sub_lt :
    ¬∀ (id : UUID) (row : ProviderRow) (cs : List Charge), (∀ c ∈ cs, 0 ≤ c.baseCost) →
      |(chargeAll id cs row).balanceUsd - (row.balanceUsd - (cs.map Charge.baseCost).sum)| <
        1 / 10000 := by
  intro h
  let row := Provider.store ⟨"openai", 10, 5, 2, .normal, none, none, none, true⟩
  let c : Charge := ⟨0, "r", 1, computeBaseCost 40 0 1 1⟩
  have hl := h 1 row [c, c, c] (by decide +kernel)
  revert hl
  decide +kernel

theorem abs_chargeAll_sub_lt_of_cents :
    |(chargeAll 1 [⟨0, "r", 1, 1/4⟩, ⟨5, "r", 2, 1/100⟩]
        (Provider.store ⟨"openai", 10, 5, 2, .normal, none, none, none, true⟩)).balanceUsd -
      ((Provider.store ⟨"openai", 10, 5, 2, .normal, none, none, none, true⟩).balanceUsd -
        ([⟨0, "r", 1, 1/4⟩, ⟨5, "r", 2, 1/100⟩].map Charge.baseCost).sum)| < 1 / 10000 := by
  refine (abs_chargeAll_sub_lt_iff_fits (S := {1/4, 1/100}) ?_).mpr ?_ _ _ ?_
  · rintro d (rfl | rfl) <;> norm_num
  · rintro d (rfl | rfl)
    · exact ⟨2500, by norm_num⟩
    · exact ⟨100, by norm_num⟩
  · simp

end PostProcess
