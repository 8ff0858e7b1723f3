import Mathlib.Tactic.Abel

-- A run of a transition system `Step`. Steps are data, so a run remembers each step it took, and
-- functions and predicates on runs are defined by recursion over them.
inductive Steps {σ : Type u} (Step : σ → σ → Type v) : σ → σ → Type (max u v)
  | refl : Steps Step s s
  | step : (Step s₁ s₂) → (Steps Step s₂ s₃) → Steps Step s₁ s₃

namespace Steps

variable {σ : Type u} {Step : σ → σ → Type v} {s₁ s₂ s₃ : σ}

def All (P : ∀ {s₁ s₂}, Step s₁ s₂ → Prop) {s₁ s₂ : σ} : Steps Step s₁ s₂ → Prop
  | refl      => True
  | step e es => P e ∧ es.All P

-- Every state that the run enters satisfies `G`.
def Visits (G : σ → Prop) (es : Steps Step s₁ s₂) : Prop :=
  es.All (fun {_ s} _ => G s)

def sum [AddMonoid M] (f : ∀ {s₁ s₂}, Step s₁ s₂ → M) {s₁ s₂ : σ} : Steps Step s₁ s₂ → M
  | refl      => 0
  | step e es => f e + es.sum f

-- What the steps of a run yield, in their order.
def collect (f : ∀ {s₁ s₂}, Step s₁ s₂ → Option α) {s₁ s₂ : σ} : Steps Step s₁ s₂ → List α
  | refl      => []
  | step e es => (f e).toList ++ es.collect f

theorem forall_mem_collect {f : ∀ {s₁ s₂}, Step s₁ s₂ → Option α} {p : α → Prop}
    {es : Steps Step s₁ s₂} : (∀ a ∈ es.collect f, p a) ↔ es.All (fun e => ∀ a ∈ f e, p a) := by
  induction es
  case refl        => simp [collect, All]
  case step e _ ih => simp [collect, All, or_imp, forall_and, ih]

-- What a step can only yield if it is not taken, and takes for good, no two steps yield.
theorem nodup_collect {f : ∀ {s₁ s₂}, Step s₁ s₂ → Option α} {I : σ → Prop}
    (es : Steps Step s₁ s₂) (Taken : σ → α → Prop) (hi : ∀ {s₁ s₂}, Step s₁ s₂ → I s₁ → I s₂)
    (ht : ∀ {s₁ s₂}, Step s₁ s₂ → I s₁ → ∀ a, Taken s₁ a → Taken s₂ a)
    (hf : ∀ {s₁ s₂} (e : Step s₁ s₂), I s₁ → ∀ a ∈ f e, ¬Taken s₁ a ∧ Taken s₂ a) (h : I s₁) :
    (es.collect f).Nodup ∧ ∀ a ∈ es.collect f, ¬Taken s₁ a := by
  induction es
  case refl => exact ⟨.nil, nofun⟩
  case step e es ih =>
    have ⟨hn, hm⟩ := ih (hi e h)
    have hm' : ∀ a ∈ es.collect f, ¬Taken _ a := fun a ha hta => hm a ha (ht e h a hta)
    rw [collect]
    cases ha : f e
    case none => exact ⟨by simpa using hn, by simpa using hm'⟩
    case some a =>
      have ⟨hb, hc⟩ := hf e h a ha
      refine ⟨List.nodup_cons.mpr ⟨fun hma => hm a hma hc, hn⟩, ?_⟩
      exact List.forall_mem_cons.mpr ⟨hb, hm'⟩

section Invariant

variable {I : σ → Prop} {P Q : ∀ {s₁ s₂}, Step s₁ s₂ → Prop}

theorem invariant_of_all (es : Steps Step s₁ s₂)
    (hi : ∀ {s₁ s₂} (e : Step s₁ s₂), I s₁ → P e → I s₂) (h : I s₁) (hp : es.All P) : I s₂ := by
  induction es
  case refl        => exact h
  case step e _ ih => exact ih (hi e h hp.left) hp.right

theorem invariant (es : Steps Step s₁ s₂) (hi : ∀ {s₁ s₂}, Step s₁ s₂ → I s₁ → I s₂) (h : I s₁) :
    I s₂ := by
  induction es
  case refl        => exact h
  case step e _ ih => exact ih (hi e h)

theorem all_of_invariant (es : Steps Step s₁ s₂)
    (hi : ∀ {s₁ s₂} (e : Step s₁ s₂), I s₁ → P e → I s₂)
    (hq : ∀ {s₁ s₂} (e : Step s₁ s₂), I s₁ → P e → Q e) (h : I s₁) (hp : es.All P) :
    es.All Q := by
  induction es
  case refl        => trivial
  case step e _ ih => exact ⟨hq e h hp.left, ih (hi e h hp.left) hp.right⟩

theorem all_of_preserved (es : Steps Step s₁ s₂) (hi : ∀ {s₁ s₂}, Step s₁ s₂ → I s₁ → I s₂)
    (hq : ∀ {s₁ s₂} (e : Step s₁ s₂), I s₁ → Q e) (h : I s₁) : es.All Q := by
  induction es
  case refl        => trivial
  case step e _ ih => exact ⟨hq e h, ih (hi e h)⟩

-- Two step predicates that agree wherever the invariant holds, and of which the first one keeps
-- the invariant, hold of the same runs.
theorem all_iff_all (es : Steps Step s₁ s₂)
    (hi : ∀ {s₁ s₂} (e : Step s₁ s₂), I s₁ → P e → I s₂)
    (hpq : ∀ {s₁ s₂} (e : Step s₁ s₂), I s₁ → (P e ↔ Q e)) (h : I s₁) :
    es.All P ↔ es.All Q := by
  induction es
  case refl        => exact Iff.rfl
  case step e _ ih =>
    refine and_congr_right_iff.mpr (fun hp => ih (hi e h hp)) |>.trans ?_
    exact and_congr_left_iff.mpr (fun _ => hpq e h)

-- A step that breaks `P` leaves the invariant for `D`, which no step leaves.
theorem all_and_or {D : σ → Prop} (es : Steps Step s₁ s₂)
    (hi : ∀ {s₁ s₂} (e : Step s₁ s₂), I s₁ → P e → I s₂)
    (hn : ∀ {s₁ s₂} (e : Step s₁ s₂), I s₁ → ¬P e → D s₂)
    (hd : ∀ {s₁ s₂}, Step s₁ s₂ → D s₁ → D s₂) (h : I s₁) :
    es.All P ∧ I s₂ ∨ ¬es.All P ∧ D s₂ := by
  induction es
  case refl => exact .inl ⟨trivial, h⟩
  case step e es ih =>
    by_cases hp : P e
    case pos => exact (ih (hi e h hp)).imp (.imp_left (⟨hp, ·⟩)) (.imp_left (· <| And.right ·))
    case neg => exact .inr ⟨(hp <| And.left ·), es.invariant hd (hn e h hp)⟩

theorem all_and {es : Steps Step s₁ s₂} :
    es.All (fun e => P e ∧ Q e) ↔ es.All P ∧ es.All Q := by
  induction es
  case refl         => exact (and_self_iff (a := True)).symm
  case step e _ ih  => exact (and_congr_right' ih).trans and_and_and_comm

end Invariant

-- If every step of the one system is matched by at most one step of the other, then runs are
-- matched by runs.
theorem simulation {τ : Type u'} {Step' : τ → τ → Type v'} {φ : σ → τ} {I : σ → Prop}
    {P : ∀ {s₁ s₂}, Step s₁ s₂ → Prop} {Q : ∀ {t₁ t₂}, Step' t₁ t₂ → Prop}
    (es : Steps Step s₁ s₂)
    (hi : ∀ {s₁ s₂} (e : Step s₁ s₂), I s₁ → P e → I s₂)
    (hs : ∀ {s₁ s₂} (e : Step s₁ s₂), I s₁ → P e →
      φ s₂ = φ s₁ ∨ ∃ e' : Step' (φ s₁) (φ s₂), Q e')
    (h : I s₁) (hp : es.All P) :
    ∃ es' : Steps Step' (φ s₁) (φ s₂), es'.All Q := by
  induction es
  case refl        => exact ⟨refl, trivial⟩
  case step e _ ih =>
    have ⟨es', hq⟩ := ih (hi e h hp.left) hp.right
    cases hs e h hp.left
    case inl he => exact he ▸ ⟨es', hq⟩
    case inr he =>
      have ⟨e', he⟩ := he
      exact ⟨step e' es', he, hq⟩

-- The same for steps that yield something: the matching runs yield the same.
theorem simulation_collect {τ : Type u'} {Step' : τ → τ → Type v'} {φ : σ → τ} {I : σ → Prop}
    {P : ∀ {s₁ s₂}, Step s₁ s₂ → Prop} {f : ∀ {s₁ s₂}, Step s₁ s₂ → Option α}
    {g : ∀ {t₁ t₂}, Step' t₁ t₂ → Option α} (es : Steps Step s₁ s₂)
    (hi : ∀ {s₁ s₂} (e : Step s₁ s₂), I s₁ → P e → I s₂)
    (hs : ∀ {s₁ s₂} (e : Step s₁ s₂), I s₁ → P e →
      φ s₂ = φ s₁ ∧ f e = none ∨ ∃ e' : Step' (φ s₁) (φ s₂), g e' = f e)
    (h : I s₁) (hp : es.All P) :
    ∃ es' : Steps Step' (φ s₁) (φ s₂), es'.collect g = es.collect f := by
  induction es
  case refl        => exact ⟨refl, rfl⟩
  case step e _ ih =>
    have ⟨es', hc⟩ := ih (hi e h hp.left) hp.right
    cases hs e h hp.left
    case inl he =>
      obtain ⟨he, hf⟩ := he
      rw [collect, hf, ← hc]
      exact he ▸ ⟨es', rfl⟩
    case inr he =>
      have ⟨e', he⟩ := he
      exact ⟨step e' es', by rw [collect, collect, he, hc]⟩

-- A quantity that every step adds as the difference of a potential telescopes over the run.
theorem sum_eq_sub [AddCommGroup M] {I : σ → Prop} {f : ∀ {s₁ s₂}, Step s₁ s₂ → M} {φ : σ → M}
    (es : Steps Step s₁ s₂) (hi : ∀ {s₁ s₂}, Step s₁ s₂ → I s₁ → I s₂)
    (hf : ∀ {s₁ s₂} (e : Step s₁ s₂), I s₁ → f e = φ s₂ - φ s₁) (h : I s₁) :
    es.sum f = φ s₂ - φ s₁ := by
  induction es
  case refl        => simp [sum]
  case step e _ ih => simp only [sum, hf e h, ih (hi e h)]; abel

end Steps
