import Mathlib.Algebra.BigOperators.Group.List.Basic
import Mathlib.Data.List.Chain

-- A journal of the changes of a value: each entry tells what the value was before the change, by
-- how much it changed, and what it was after it.
structure Journal (ε M : Type*) where
  before : ε → M
  amount : ε → M
  after  : ε → M

namespace Journal

variable {ε M : Type*} [AddCommGroup M] {J : Journal ε M} {es : List ε} {e : ε} {v : M}

-- Every entry is right in itself and starts where the one before it has ended, and the last one
-- ends at the value `v`.
structure Chained (J : Journal ε M) (es : List ε) (v : M) : Prop where
  amounts : ∀ e ∈ es, J.after e = J.before e + J.amount e
  links   : es.IsChain (J.after · = J.before ·)
  last    : ∀ e ∈ es.getLast?, J.after e = v

theorem chained_nil : J.Chained [] v where
  amounts := by simp
  links   := .nil
  last    := by simp

-- An entry goes on with the journal exactly if it starts where the journal has ended.
theorem Chained.append_iff (h : J.Chained es v) (he : J.after e = J.before e + J.amount e)
    (v' : M) :
    J.Chained (es ++ [e]) v' ↔ J.after e = v' ∧ (es = [] ∨ J.before e = v) := by
  have hv : (∀ x ∈ (es ++ [e]).getLast?, J.after x = v') ↔ J.after e = v' := by simp
  cases hl : es.getLast?
  case none =>
    have hn := List.getLast?_eq_none_iff.mp hl
    subst hn
    exact ⟨fun hc => ⟨hv.mp hc.last, .inl rfl⟩,
      fun ha => ⟨by simpa using he, .singleton e, hv.mpr ha.left⟩⟩
  case some e' =>
    have hn : es ≠ [] := by rintro rfl; contradiction
    have hb := h.last e' hl
    constructor
    case mp =>
      intro hc
      have hs := (List.isChain_append.mp hc.links).right.right e' hl e rfl
      exact ⟨hv.mp hc.last, .inr (hs.symm.trans hb)⟩
    case mpr =>
      intro ⟨ha, hs⟩
      have hs := hs.resolve_left hn
      refine ⟨?_, List.isChain_append.mpr ⟨h.links, .singleton e, ?_⟩, hv.mpr ha⟩
      case refine_1 => simpa [or_imp, forall_and, he] using h.amounts
      case refine_2 =>
        intro x hx y hy
        cases hl.symm.trans hx
        cases hy
        exact hb.trans hs.symm

-- The amounts of a journal add up: none of its changes is lost.
theorem Chained.eq_add_sum (h : J.Chained (e :: es) v) :
    v = J.before e + ((e :: es).map J.amount).sum := by
  induction es generalizing e
  case nil =>
    rw [← h.last e rfl, h.amounts e List.mem_cons_self]
    simp
  case cons e' es ih =>
    have hl := List.isChain_cons_cons.mp h.links
    have ht : J.Chained (e' :: es) v := {
      amounts := fun x hx => h.amounts x (List.mem_cons_of_mem e hx)
      links   := hl.right
      last    := fun x hx => h.last x (by rwa [List.getLast?_cons_cons]) }
    calc
      v = J.before e' + ((e' :: es).map J.amount).sum                := ih ht
      _ = J.before e + J.amount e + ((e' :: es).map J.amount).sum    := by
        rw [← hl.left, h.amounts e List.mem_cons_self]
      _ = J.before e + (J.amount e + ((e' :: es).map J.amount).sum)  := add_assoc ..

end Journal
