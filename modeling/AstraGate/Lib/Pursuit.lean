-- A walk over nodes that link to at most one other node each: it is over at the first good node.

-- `b` is `n` links away from `a`, and none of the nodes before it is good.
inductive Follows (Good : α → Prop) (next : α → Option α) : Nat → α → α → Prop
  | refl (a : α) : Follows Good next 0 a a
  | step {a b c : α} {n : Nat} (bad : ¬Good a) (link : next a = some b)
    (rest : Follows Good next n b c) : Follows Good next (n + 1) a c

-- The first good node that is at most the given number of links away.
def pursue (Good : α → Prop) [DecidablePred Good] (next : α → Option α) : Nat → α → Option α
  | 0,     a => if Good a then some a else none
  | n + 1, a => if Good a then some a else (next a).bind (pursue Good next n)

variable {Good : α → Prop} [DecidablePred Good] {next : α → Option α} {a b : α} {n : Nat}

theorem pursue_of_good (h : Good a) : pursue Good next n a = some a := by
  cases n <;> simp [pursue, h]

theorem pursue_zero_of_bad (h : ¬Good a) : pursue Good next 0 a = none := by
  simp [pursue, h]

theorem pursue_succ_of_bad (h : ¬Good a) :
    pursue Good next (n + 1) a = (next a).bind (pursue Good next n) := by
  simp [pursue, h]

theorem pursue_of_end (h : ¬Good a) (hn : next a = none) : pursue Good next n a = none := by
  cases n
  case zero   => exact pursue_zero_of_bad h
  case succ n => rw [pursue_succ_of_bad h, hn, Option.bind_none]

theorem pursue_of_link (h : ¬Good a) (hn : next a = some b) :
    pursue Good next (n + 1) a = pursue Good next n b := by
  rw [pursue_succ_of_bad h, hn, Option.bind_some]

theorem pursue_eq_some_iff :
    pursue Good next n a = some b ↔ (∃ k ≤ n, Follows Good next k a b) ∧ Good b := by
  constructor
  case mp =>
    intro h
    induction n generalizing a
    case zero =>
      by_cases ha : Good a
      case neg => exact absurd ((pursue_zero_of_bad ha).symm.trans h) (by simp)
      case pos =>
        cases (pursue_of_good ha).symm.trans h
        exact ⟨⟨0, Nat.le_refl 0, .refl _⟩, ha⟩
    case succ n ih =>
      by_cases ha : Good a
      case pos =>
        cases (pursue_of_good ha).symm.trans h
        exact ⟨⟨0, Nat.zero_le _, .refl _⟩, ha⟩
      case neg =>
        rw [pursue_succ_of_bad ha] at h
        have ⟨c, hc, hb⟩ := Option.bind_eq_some_iff.mp h
        have ⟨⟨k, hk, hf⟩, hg⟩ := ih hb
        exact ⟨⟨k + 1, Nat.succ_le_succ hk, .step ha hc hf⟩, hg⟩
  case mpr =>
    intro ⟨⟨k, hk, hf⟩, hb⟩
    induction hf generalizing n
    case refl => exact pursue_of_good hb
    case step k bad link _ ih =>
      have ⟨m, hm⟩ := Nat.exists_eq_add_of_le' (Nat.le_trans (Nat.succ_le_succ k.zero_le) hk)
      subst hm
      rw [pursue_of_link bad link]
      exact ih (Nat.le_of_succ_le_succ hk) hb

-- The nodes that a walk has passed on its way to `a`.
structure Trail (Good : α → Prop) (next : α → Option α) (passed : List α) (a : α) : Prop where
  bad  : ∀ b ∈ passed, ¬Good b
  link : ∀ b ∈ passed, ∀ c, next b = some c → c = a ∨ c ∈ passed

namespace Trail

variable {passed : List α}

omit [DecidablePred Good] in
theorem nil : Trail Good next [] a where
  bad  := by simp
  link := by simp

omit [DecidablePred Good] in
theorem pass (h : Trail Good next passed a) (ha : ¬Good a) (hn : next a = some b) :
    Trail Good next (a :: passed) b where
  bad := List.forall_mem_cons.mpr ⟨ha, h.bad⟩
  link := by
    refine List.forall_mem_cons.mpr ⟨?_, ?_⟩
    case refine_1 => exact fun c hc => .inl (Option.some.inj (hc.symm.trans hn))
    case refine_2 =>
      intro d hd c hc
      cases h.link d hd c hc
      case inl he => exact .inr (he ▸ List.mem_cons_self)
      case inr hm => exact .inr (List.mem_cons_of_mem a hm)

-- A walk that is back at a node that it has passed only ever goes around nodes that are not good.
theorem pursue_eq_none (h : Trail Good next passed a) (ha : a ∈ passed) :
    pursue Good next n a = none := by
  have hp : ∀ b ∈ passed, pursue Good next n b = none := by
    induction n
    case zero => exact fun b hb => pursue_zero_of_bad (h.bad b hb)
    case succ n ih =>
      intro b hb
      cases hn : next b
      case none   => exact pursue_of_end (h.bad b hb) hn
      case some c =>
        rw [pursue_of_link (h.bad b hb) hn]
        cases h.link b hb c hn
        case inl he => exact ih c (he ▸ ha)
        case inr hm => exact ih c hm
  exact hp a ha

end Trail
