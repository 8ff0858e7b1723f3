import AstraGate.Lib.Steps
import Mathlib.Data.Set.Insert
import Mathlib.Logic.Function.Basic
import Mathlib.Logic.Relation
import Mathlib.Order.Basic

open Function

-- Transactions that lock rows one after another, and keep them until they end: the transaction that
-- has locked a row, and the rows that a transaction is still to lock.
structure Locks (τ : Type u) (ρ : Type v) where
  owner : ρ → Option τ
  todo  : τ → List ρ

namespace Locks

variable {τ : Type u} {ρ : Type v} {s s' : Locks τ ρ} {t t' : τ} {r r' : ρ}

def held (s : Locks τ ρ) (t : τ) : Set ρ :=
  { r | s.owner r = some t }

-- The next row that `t` is to lock has been locked by `t'`.
def Waits (s : Locks τ ρ) (t t' : τ) : Prop :=
  ∃ r rest, s.todo t = r :: rest ∧ s.owner r = some t' ∧ t' ≠ t

-- There are transactions that wait for each other in a circle.
def Deadlock (s : Locks τ ρ) : Prop :=
  ∃ t, Relation.TransGen s.Waits t t

structure Initial (s : Locks τ ρ) : Prop where
  free : ∀ r, s.owner r = none
  idle : ∀ t, s.todo t = []

section Step

variable [DecidableEq τ]

def start (s : Locks τ ρ) (t : τ) (rows : List ρ) : Locks τ ρ :=
  { s with todo := update s.todo t rows }

def lock [DecidableEq ρ] (s : Locks τ ρ) (t : τ) (r : ρ) (rest : List ρ) : Locks τ ρ where
  owner := update s.owner r (some t)
  todo  := update s.todo t rest

def finish (s : Locks τ ρ) (t : τ) : Locks τ ρ where
  owner r := s.owner r |>.filter (· ≠ t)
  todo    := update s.todo t []

-- Each transaction locks the rows of one of the `programs` in their order, and may end at any time.
-- It waits for a row until it is free, and does not wait for rows that it has locked itself.
inductive Step [DecidableEq ρ] (programs : Set (List ρ)) (s : Locks τ ρ) :
    Locks τ ρ → Type (max u v)
  | start (t : τ) (rows : List ρ) (mem : rows ∈ programs) (idle : s.held t = ∅) :
    Step programs s (s.start t rows)
  | lock (t : τ) (r : ρ) (rest : List ρ) (next : s.todo t = r :: rest)
    (free : s.owner r = none ∨ s.owner r = some t) : Step programs s (s.lock t r rest)
  | finish (t : τ) : Step programs s (s.finish t)

@[simp]
theorem start_todo : (s.start t rows).todo = update s.todo t rows :=
  rfl

@[simp]
theorem lock_todo [DecidableEq ρ] : (s.lock t r rest).todo = update s.todo t rest :=
  rfl

@[simp]
theorem finish_todo : (s.finish t).todo = update s.todo t [] :=
  rfl

@[simp]
theorem held_start : (s.start t rows).held t' = s.held t' :=
  rfl

theorem held_lock_self [DecidableEq ρ] : (s.lock t r rest).held t = insert r (s.held t) := by
  ext r'
  by_cases hr : r' = r <;> simp [held, lock, hr]

theorem held_lock_of_ne [DecidableEq ρ] (h : s.owner r = none ∨ s.owner r = some t)
    (ht : t' ≠ t) : (s.lock t r rest).held t' = s.held t' := by
  ext r'
  by_cases hr : r' = r
  case neg => simp [held, lock, hr]
  case pos => cases h <;> simp_all [held, lock, Ne.symm ht]

theorem held_finish_of_ne (ht : t' ≠ t) : (s.finish t).held t' = s.held t' := by
  ext r
  show (s.owner r |>.filter (· ≠ t)) = some t' ↔ s.owner r = some t'
  simp [Option.filter_eq_some_iff, ht]

end Step

section Order

variable {κ : Type w} [Preorder κ] {rank : ρ → κ} {held : Set ρ} {rows rows' : List ρ}

-- Every row ranks above those that have been locked before it, or is one of them.
def Ascends (rank : ρ → κ) (held : Set ρ) : List ρ → Prop
  | []        => True
  | r :: rows => (r ∈ held ∨ ∀ r' ∈ held, rank r' < rank r) ∧ Ascends rank (insert r held) rows

@[simp]
theorem ascends_nil : Ascends rank held [] :=
  trivial

theorem ascends_cons :
    Ascends rank held (r :: rows) ↔
      (r ∈ held ∨ ∀ r' ∈ held, rank r' < rank r) ∧ Ascends rank (insert r held) rows :=
  Iff.rfl

-- It does not matter how often a row is locked again.
theorem ascends_cons_of_mem (h : r ∈ held) :
    Ascends rank held (r :: rows) ↔ Ascends rank held rows := by
  rw [ascends_cons, and_iff_right (.inl h), Set.insert_eq_of_mem h]

theorem ascends_replicate_append (h : r ∈ held) (n : Nat) :
    Ascends rank held (List.replicate n r ++ rows) ↔ Ascends rank held rows := by
  induction n
  case zero      => rfl
  case succ n ih => rw [List.replicate_succ, List.cons_append, ascends_cons_of_mem h, ih]

-- All transactions go up from the rows that they have locked.
def Ascending (rank : ρ → κ) (s : Locks τ ρ) : Prop :=
  ∀ t, Ascends rank (s.held t) (s.todo t)

theorem Initial.ascending (h : s.Initial) : s.Ascending rank := by
  intro t
  rw [h.idle t]
  trivial

-- A transaction that waits ranks its next row above all rows that it has locked.
theorem Ascending.lt_of_waits (h : s.Ascending rank) (hw : s.Waits t t')
    (ht : s.todo t = r :: rest) (ht' : s.todo t' = r' :: rest') (hn : s.owner r' ≠ some t') :
    rank r < rank r' := by
  have ⟨r₁, rest₁, ht₁, ho, _⟩ := hw
  cases ht.symm.trans ht₁
  have ha := h t'
  rw [ht'] at ha
  exact ha.left.resolve_left hn r ho

-- Along a chain of waiting transactions, the rows that they wait for go up.
theorem Ascending.lt_of_transGen (h : s.Ascending rank) (hw : Relation.TransGen s.Waits t t')
    (ht : s.todo t = r :: rest) (ht' : s.todo t' = r' :: rest') (hn : s.owner r' ≠ some t') :
    rank r < rank r' := by
  induction hw generalizing r' rest'
  case single hw => exact h.lt_of_waits hw ht ht' hn
  case tail hw ih =>
    have ⟨r₁, rest₁, ht₁, ho, hne⟩ := hw
    have hn₁ : s.owner r₁ ≠ some _ := fun he => hne (Option.some.inj (ho.symm.trans he))
    exact (ih ht₁ hn₁).trans (h.lt_of_waits hw ht₁ ht' hn)

theorem Ascending.no_deadlock (h : s.Ascending rank) : ¬s.Deadlock := by
  intro ⟨t, hw⟩
  have ⟨t', hw', _⟩ := Relation.TransGen.head'_iff.mp hw
  have ⟨r, rest, ht, ho, hne⟩ := hw'
  have hn : s.owner r ≠ some t := fun he => hne (Option.some.inj (ho.symm.trans he))
  exact lt_irrefl _ (h.lt_of_transGen hw ht ht hn)

variable [DecidableEq τ] [DecidableEq ρ] {programs : Set (List ρ)}

theorem Step.preserves_ascending (e : Step programs s s')
    (hp : ∀ rows ∈ programs, Ascends rank ∅ rows) (h : s.Ascending rank) : s'.Ascending rank := by
  intro t'
  cases e
  case start t rows mem idle =>
    by_cases ht : t' = t
    case pos => simpa [ht, idle] using hp rows mem
    case neg => simpa [ht] using h t'
  case lock t r rest next free =>
    by_cases ht : t' = t
    case pos =>
      have ha := h t
      rw [next] at ha
      simpa [ht, held_lock_self] using ha.right
    case neg => simpa [ht, held_lock_of_ne free ht] using h t'
  case finish t =>
    by_cases ht : t' = t
    case pos => simp [ht]
    case neg => simpa [ht, held_finish_of_ne ht] using h t'

-- If all programs go up, no run leads to a deadlock.
theorem not_deadlock_of_ascends (es : Steps (Step programs) s s') (hi : s.Initial)
    (hp : ∀ rows ∈ programs, Ascends rank ∅ rows) : ¬s'.Deadlock :=
  es.invariant (I := Ascending rank) (fun e => e.preserves_ascending hp) hi.ascending
    |>.no_deadlock

end Order
end Locks
