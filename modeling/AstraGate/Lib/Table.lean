import Mathlib.Logic.Function.Basic

open Function

-- A table of committed rows. A transaction that holds a row's lock keeps its uncommitted version of
-- the row next to it: nobody else sees that version, and nobody else can lock the row.
@[ext]
structure Table (ι τ ρ : Type*) where
  rows    : ι → ρ
  pending : ι → Option (τ × ρ)

namespace Table

variable {ι τ ρ : Type*} [DecidableEq ι] {T : Table ι τ ρ} {i j : ι} {t : τ} {v : ρ}

def Free (T : Table ι τ ρ) (i : ι) : Prop :=
  T.pending i = none

def Quiet (T : Table ι τ ρ) : Prop :=
  ∀ i, T.Free i

-- Locks row `i` for `t`, or replaces the uncommitted version of a row that `t` has locked.
def lock (T : Table ι τ ρ) (i : ι) (t : τ) (v : ρ) : Table ι τ ρ :=
  { T with pending := update T.pending i (some (t, v)) }

def rollback (T : Table ι τ ρ) (i : ι) : Table ι τ ρ :=
  { T with pending := update T.pending i none }

-- Publishes `v` as the committed row `i` and gives the lock back.
def commit (T : Table ι τ ρ) (i : ι) (v : ρ) : Table ι τ ρ where
  rows    := update T.rows i v
  pending := update T.pending i none

section Transaction

variable [DecidableEq τ]

-- The end of the transaction `t`: all rows that it has locked are published, or given back.
def commitBy (T : Table ι τ ρ) (t : τ) : Table ι τ ρ where
  rows i    := T.pending i |>.filter (·.1 = t) |>.elim (T.rows i) Prod.snd
  pending i := T.pending i |>.filter (·.1 ≠ t)

def rollbackBy (T : Table ι τ ρ) (t : τ) : Table ι τ ρ :=
  { T with pending := fun i => T.pending i |>.filter (·.1 ≠ t) }

end Transaction

@[simp]
theorem lock_rows : (T.lock i t v).rows = T.rows :=
  rfl

@[simp]
theorem lock_pending : (T.lock i t v).pending = update T.pending i (some (t, v)) :=
  rfl

@[simp]
theorem rollback_rows : (T.rollback i).rows = T.rows :=
  rfl

@[simp]
theorem rollback_pending : (T.rollback i).pending = update T.pending i none :=
  rfl

@[simp]
theorem commit_rows : (T.commit i v).rows = update T.rows i v :=
  rfl

@[simp]
theorem commit_pending : (T.commit i v).pending = update T.pending i none :=
  rfl

theorem pending_lock_cases (h : (T.lock i t v).pending j = some (t', v')) :
    j = i ∧ t' = t ∧ v' = v ∨ j ≠ i ∧ T.pending j = some (t', v') := by
  by_cases hj : j = i
  case pos =>
    rw [lock_pending, hj, update_self, Option.some.injEq, Prod.mk.injEq] at h
    exact .inl ⟨hj, h.left.symm, h.right.symm⟩
  case neg => exact .inr ⟨hj, by simpa [hj] using h⟩

theorem pending_of_lock (h : (T.lock i t v).pending j = some (t', v')) :
    t' = t ∨ T.pending j = some (t', v') := by
  cases pending_lock_cases h
  case inl he => exact .inl he.right.left
  case inr hn => exact .inr hn.right

theorem pending_of_rollback (h : (T.rollback i).pending j = some (t', v')) :
    T.pending j = some (t', v') := by
  by_cases hj : j = i
  case pos => simp [hj] at h
  case neg => simpa [hj] using h

-- A lock leaves those of the other rows in force.
theorem pending_lock_of_free (h : T.pending i = some (t', v')) (hf : T.Free j) :
    (T.lock j t v).pending i = some (t', v') := by
  have hn : i ≠ j := fun he => nomatch (he ▸ hf : T.Free i).symm.trans h
  rw [lock_pending, update_of_ne hn, h]

section Transaction

variable [DecidableEq τ]

omit [DecidableEq ι] in
@[simp]
theorem rollbackBy_rows : (T.rollbackBy t).rows = T.rows :=
  rfl

omit [DecidableEq ι] in
theorem pending_rollbackBy :
    (T.rollbackBy t).pending i = some (t', v) ↔ T.pending i = some (t', v) ∧ t' ≠ t := by
  simp [rollbackBy, Option.filter_eq_some_iff]

omit [DecidableEq ι] in
theorem pending_commitBy :
    (T.commitBy t).pending i = some (t', v) ↔ T.pending i = some (t', v) ∧ t' ≠ t :=
  pending_rollbackBy

omit [DecidableEq ι] in
theorem rows_commitBy (h : T.pending i = some (t, v)) : (T.commitBy t).rows i = v := by
  simp [commitBy, h, Option.filter_some]

omit [DecidableEq ι] in
theorem rows_commitBy_of_ne (h : ∀ v, T.pending i ≠ some (t, v)) :
    (T.commitBy t).rows i = T.rows i := by
  cases hp : T.pending i
  case none => simp [commitBy, hp]
  case some p =>
    have hn : p.1 ≠ t := fun he => h p.2 (by rw [hp, ← he])
    simp [commitBy, hp, hn, Option.filter_some]

-- A committed row is the one that was committed before, or the version that `t` has made of it.
omit [DecidableEq ι] in
theorem rows_commitBy_cases (T : Table ι τ ρ) (t : τ) (i : ι) :
    (T.commitBy t).rows i = T.rows i ∨ T.pending i = some (t, (T.commitBy t).rows i) := by
  by_cases h : ∃ v, T.pending i = some (t, v)
  case pos =>
    have ⟨v, hv⟩ := h
    exact .inr (by rw [hv, rows_commitBy hv])
  case neg => exact .inl <| rows_commitBy_of_ne (not_exists.mp h)

end Transaction

-- Every uncommitted version is related to the row that is still committed below it. With `R t i`
-- the effect of transaction `t` on row `i`, this says that committing `t` changes the committed
-- row by exactly that effect, whatever was committed elsewhere since `t` took the lock.
def Coherent (R : τ → ι → ρ → ρ → Prop) (T : Table ι τ ρ) : Prop :=
  ∀ ⦃i t v⦄, T.pending i = some (t, v) → R t i (T.rows i) v

namespace Coherent

variable {R R' : τ → ι → ρ → ρ → Prop}

omit [DecidableEq ι] in
theorem of_quiet (h : T.Quiet) : T.Coherent R :=
  fun i _ _ hp => nomatch (h i).symm.trans hp

omit [DecidableEq ι] in
theorem mono (h : T.Coherent R)
    (hr : ∀ {i t v}, T.pending i = some (t, v) → R t i (T.rows i) v → R' t i (T.rows i) v) :
    T.Coherent R' :=
  fun _ _ _ hp => hr hp (h hp)

theorem lock (h : T.Coherent R) (hr : R t i (T.rows i) v) : (T.lock i t v).Coherent R := by
  intro j t' v' hp
  obtain ⟨rfl, rfl, rfl⟩ | ⟨_, hp⟩ := pending_lock_cases hp
  · exact hr
  · exact h hp

theorem rollback (h : T.Coherent R) : (T.rollback i).Coherent R :=
  fun _ _ _ hp => h (pending_of_rollback hp)

theorem commit (h : T.Coherent R) : (T.commit i v).Coherent R := by
  intro j t' v' hp
  by_cases hj : j = i
  case pos => simp [hj] at hp
  case neg =>
    rw [commit_rows, update_of_ne hj]
    exact h ((update_of_ne hj ..).symm.trans hp)

-- The rows that `t` has not locked do not change.
omit [DecidableEq ι] in
theorem commitBy [DecidableEq τ] (h : T.Coherent R) (t : τ) : (T.commitBy t).Coherent R := by
  intro i t' v hp
  have ⟨hp, ht⟩ := pending_commitBy.mp hp
  have hn : ∀ w, T.pending i ≠ some (t, w) := by
    intro w hw
    rw [hp, Option.some.injEq, Prod.mk.injEq] at hw
    exact ht hw.left
  rw [rows_commitBy_of_ne hn]
  exact h hp

omit [DecidableEq ι] in
theorem rollbackBy [DecidableEq τ] (h : T.Coherent R) (t : τ) : (T.rollbackBy t).Coherent R :=
  fun _ _ _ hp => h (pending_rollbackBy.mp hp).left

-- The transactions of tasks: what a transaction does to a row depends on how far its task has come.
section Tasks

variable {κ : Type*} [DecidableEq τ] {W : κ → ι → ρ → ρ → Prop} {tasks : τ → κ} {k : κ}

omit [DecidableEq ι] in
theorem setTask (h : T.Coherent fun t => W (tasks t))
    (hw : ∀ {i old new}, W (tasks t) i old new → W k i old new) :
    T.Coherent fun t' => W (update tasks t k t') := by
  refine h.mono (fun {i t' new} _ hr => ?_)
  by_cases ht : t' = t
  case pos => subst ht; simpa using hw hr
  case neg => simpa [ht] using hr

theorem lockTask (h : T.Coherent fun t => W (tasks t))
    (ho : ∀ {j old new}, W (tasks t) j old new → j = i) (hw : W k i (T.rows i) v) :
    (T.lock i t v).Coherent fun t' => W (update tasks t k t') := by
  intro j t' new hp
  obtain ⟨rfl, rfl, rfl⟩ | ⟨hj, hp⟩ := pending_lock_cases hp
  · simpa using hw
  · have ht : t' ≠ t := fun he => hj (ho <| he ▸ h hp)
    simpa [ht] using h hp

-- A transaction that gives back the lock of row `i`, whatever it leaves there, has locked no other.
theorem unlockTask {rows : ι → ρ} (h : T.Coherent fun t => W (tasks t))
    (ho : ∀ {j old new}, W (tasks t) j old new → j = i) (hr : ∀ j ≠ i, rows j = T.rows j) :
    Table.Coherent (fun t' => W (update tasks t k t')) {
      rows, pending := update T.pending i none } := by
  intro j t' new hp
  by_cases hj : j = i
  case pos => simp [hj] at hp
  case neg =>
    have hp : T.pending j = some (t', new) := (update_of_ne hj ..).symm.trans hp
    have ht : t' ≠ t := fun he => hj (ho <| he ▸ h hp)
    simpa [ht, hr j hj] using h hp

theorem rollbackTask (h : T.Coherent fun t => W (tasks t))
    (ho : ∀ {j old new}, W (tasks t) j old new → j = i) :
    (T.rollback i).Coherent fun t' => W (update tasks t k t') :=
  h.unlockTask ho (fun _ _ => rfl)

theorem commitTask (h : T.Coherent fun t => W (tasks t))
    (ho : ∀ {j old new}, W (tasks t) j old new → j = i) :
    (T.commit i v).Coherent fun t' => W (update tasks t k t') :=
  h.unlockTask ho (fun _ hj => update_of_ne hj ..)

-- A transaction that has ended has locked no row.
omit [DecidableEq ι] in
theorem endTask (h : T.Coherent fun t => W (tasks t)) (hn : ∀ {i v}, T.pending i ≠ some (t, v)) :
    T.Coherent fun t' => W (update tasks t k t') := by
  refine h.mono (fun {i t' new} hp hr => ?_)
  have ht : t' ≠ t := fun he => hn (he ▸ hp)
  simpa [ht] using hr

end Tasks
end Coherent
end Table
