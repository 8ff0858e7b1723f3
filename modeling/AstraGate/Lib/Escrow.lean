import AstraGate.Lib.Steps
import Mathlib.Algebra.BigOperators.Finprod
import Mathlib.Algebra.Order.Group.Defs
import Mathlib.Tactic.Abel

open Function

-- An escrow keeps for every owner the funds paid in, and for every open reservation its owner and
-- its amount. What an owner can still spend are the funds less the open reservations.
@[ext]
structure Escrow (ι κ M : Type*) where
  funds  : ι → M
  held   : κ → Option (ι × M)
  finite : {k | held k ≠ none}.Finite

namespace Escrow

variable {ι κ M : Type*} [DecidableEq ι]

section Share

variable [AddCommMonoid M]

-- The part of a reservation that belongs to owner `i`.
def share (i : ι) : Option (ι × M) → M
  | some (j, m) => if j = i then m else 0
  | none        => 0

@[simp]
theorem share_none (i : ι) : share i (none : Option (ι × M)) = 0 :=
  rfl

@[simp]
theorem share_some (i j : ι) (m : M) : share i (some (j, m)) = if j = i then m else 0 :=
  rfl

theorem finite_support_share (E : Escrow ι κ M) (i : ι) :
    (support fun k => share i (E.held k)).Finite := by
  refine E.finite.subset (fun k hk hn => hk ?_)
  simp [hn]

end Share

variable [AddCommGroup M] {E : Escrow ι κ M} {i j : ι} {k : κ} {m c : M}

noncomputable def reserved (E : Escrow ι κ M) (i : ι) : M :=
  ∑ᶠ k, share i (E.held k)

noncomputable def available (E : Escrow ι κ M) (i : ι) : M :=
  E.funds i - E.reserved i

def deposit (E : Escrow ι κ M) (i : ι) (m : M) : Escrow ι κ M :=
  { E with funds := update E.funds i (E.funds i + m) }

variable [DecidableEq κ]

-- Opens the reservation `k` as `h`, or closes it.
def assign (E : Escrow ι κ M) (k : κ) (h : Option (ι × M)) : Escrow ι κ M where
  funds  := E.funds
  held   := update E.held k h
  finite := by
    refine (E.finite.insert k).subset (fun k' hk => ?_)
    by_cases hk' : k' = k
    case pos => exact .inl hk'
    case neg => exact .inr <| by simpa [update_of_ne hk'] using hk

theorem reserved_assign (h : Option (ι × M)) :
    (E.assign k h).reserved i = E.reserved i + (share i h - share i (E.held k)) := by
  let change k' := if k' = k then share i h - share i (E.held k) else 0
  have hs : ∀ k', share i ((E.assign k h).held k') = share i (E.held k') + change k' := by
    intro k'
    by_cases hk : k' = k <;> simp [assign, change, hk]
  have hf : (support change).Finite :=
    (Set.finite_singleton k).subset (fun k' => by simp +contextual [change])
  have hc : ∑ᶠ k', change k' = share i h - share i (E.held k) := by
    rw [finsum_eq_single _ k (fun k' hk => by simp [change, hk])]
    simp [change]
  simp only [reserved, hs]
  rw [finsum_add_distrib (E.finite_support_share i) hf, hc]

theorem available_assign (h : Option (ι × M)) :
    (E.assign k h).available i = E.available i - share i h + share i (E.held k) := by
  have hf : (E.assign k h).funds = E.funds := rfl
  simp only [available, reserved_assign, hf]
  abel

omit [DecidableEq κ] in
theorem available_deposit :
    (E.deposit j m).available i = E.available i + if j = i then m else 0 := by
  by_cases h : i = j
  case pos => simp [available, reserved, deposit, h]; abel
  case neg => simp [available, reserved, deposit, h, Ne.symm h]

omit [DecidableEq ι] [AddCommGroup M] in
theorem assign_eq_self (h : E.held k = r) : E.assign k r = E := by
  ext : 1
  · rfl
  · exact h ▸ update_eq_self k E.held

omit [DecidableEq κ] in
theorem deposit_zero : E.deposit i 0 = E := by
  simp [deposit]

-- What the owners and the reservations may do: funds are paid in, a reservation is opened if it is
-- covered, and it is closed again either whole or against a cost.
inductive Step [LE M] (E : Escrow ι κ M) : Escrow ι κ M → Type _
  | deposit (i : ι) (m : M) : Step E (E.deposit i m)
  | reserve (k : κ) (i : ι) (m : M) (new : E.held k = none) (covered : m ≤ E.available i) :
    Step E (E.assign k <| some (i, m))
  | release (k : κ) (i : ι) (m : M) (held : E.held k = some (i, m)) : Step E (E.assign k none)
  | settle (k : κ) (i : ι) (m c : M) (held : E.held k = some (i, m)) :
    Step E (E.assign k none |>.deposit i (-c))

def Solvent [LE M] (E : Escrow ι κ M) : Prop :=
  ∀ i, 0 ≤ E.available i

-- The steps that never spend more than they may: nothing negative is paid in or given back, and
-- no reservation is settled for more than it holds.
def Step.Sound [LE M] {E E' : Escrow ι κ M} : Step E E' → Prop
  | deposit _ m         => 0 ≤ m
  | reserve _ _ _ _ _   => True
  | release _ _ m _     => 0 ≤ m
  | settle _ _ m c _    => c ≤ m

theorem Step.preserves_solvent [PartialOrder M] [IsOrderedAddMonoid M] {E E' : Escrow ι κ M}
    (e : Step E E') (h : E.Solvent) (hs : e.Sound) : E'.Solvent := by
  intro i
  have hi := h i
  cases e <;> simp only [available_deposit, available_assign, share_none, share_some]
  case deposit j m =>
    split
    · exact add_nonneg hi hs
    · simpa using hi
  case reserve k j m new covered =>
    simp only [new, share_none, add_zero]
    split
    case isTrue hj => exact sub_nonneg.mpr (hj ▸ covered)
    case isFalse   => simpa using hi
  case release k j m held =>
    simp only [held, share_some, sub_zero]
    split
    · exact add_nonneg hi hs
    · simpa using hi
  case settle k j m c held =>
    simp only [held, share_some, sub_zero]
    split
    · rw [add_assoc, ← sub_eq_add_neg]
      exact add_nonneg hi (sub_nonneg.mpr hs)
    · simpa using hi

theorem solvent_of_sound [PartialOrder M] [IsOrderedAddMonoid M] {E E' : Escrow ι κ M}
    (es : Steps Step E E') (h : E.Solvent) (hs : es.All Step.Sound) : E'.Solvent :=
  es.invariant_of_all (fun e => e.preserves_solvent) h hs

end Escrow
