import Mathlib.Data.Finset.Card
import Mathlib.Data.Set.Function
import Mathlib.Order.Interval.Finset.Nat

-- Holders that have drawn numbers from a counter, one after another and starting from 1.
namespace Tickets

variable {ι : Type*} {number number' : ι → ℕ} {S : Finset ι} {i : ι}

def Numbered (number : ι → ℕ) (S : Finset ι) : Prop :=
  Set.BijOn number S (Set.Icc 1 S.card)

theorem numbered_empty : Numbered number ∅ := by
  simp [Numbered]

theorem Numbered.congr (h : Numbered number S) (hn : ∀ j ∈ S, number' j = number j) :
    Numbered number' S :=
  Set.BijOn.congr h fun j hj => (hn j hj).symm

theorem Numbered.draw [DecidableEq ι] (h : Numbered number S) (hi : i ∉ S)
    (hn : number i = S.card + 1) : Numbered number (insert i S) := by
  have hc : Set.Icc 1 (S.card + 1) = insert (number i) (Set.Icc 1 S.card) := by
    ext n
    simp only [hn, Set.mem_Icc, Set.mem_insert_iff]
    omega
  rw [Numbered, Finset.card_insert_of_notMem hi, hc, Finset.coe_insert]
  exact Set.BijOn.insert h (by simp [hn])

-- Whatever the order in which the numbers are drawn, the first `L` are drawn by as many holders.
theorem Numbered.card_filter_le (h : Numbered number S) (L : ℕ) :
    (S.filter (number · ≤ L)).card = min S.card L := by
  have hi : Set.InjOn number (S.filter (number · ≤ L)) :=
    h.injOn.mono <| Finset.coe_subset.mpr <| Finset.filter_subset ..
  have hm : (S.filter (number · ≤ L)).image number = Finset.Icc 1 (min S.card L) := by
    ext n
    simp only [Finset.mem_image, Finset.mem_filter, Finset.mem_Icc, le_min_iff]
    constructor
    case mp =>
      rintro ⟨j, ⟨hj, hl⟩, rfl⟩
      have ⟨h₁, h₂⟩ := h.mapsTo hj
      exact ⟨h₁, h₂, hl⟩
    case mpr =>
      intro ⟨h₁, h₂, hl⟩
      have ⟨j, hj, he⟩ := h.surjOn ⟨h₁, h₂⟩
      exact ⟨j, ⟨hj, he ▸ hl⟩, he⟩
  rw [← Finset.card_image_of_injOn hi, hm, Nat.card_Icc, Nat.add_sub_cancel]

end Tickets
