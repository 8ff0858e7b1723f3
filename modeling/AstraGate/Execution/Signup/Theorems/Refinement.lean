import AstraGate.Execution.Credit.Step
import AstraGate.Execution.Signup.Theorems.Provisioning

open Function

namespace Credit

-- The user whom a step signs up.
def Step.signup? {s s' : State} (e : Step s s') : Option UUID :=
  match e with
  | signup u .. => some u
  | _           => none

end Credit

namespace Signup

open Auth State

variable {str : UUID → String} {hashKey : String → String} {hashpw : String → String → String}
  {s s' s₁ s₂ : State}

-- The committed accounts and bookings, as the credit system has them while nobody spends.
def State.credit (s : State) : Credit.State :=
  .initial s.accounts s.transactions

namespace Step

-- The id of the user whom a step creates.
def createdId? (e : Step str hashKey hashpw s s') : Option UUID :=
  match e with
  | commit _ user .. => some user.id
  | _                => none

-- A step of the calls themselves.
def Local (e : Step str hashKey hashpw s s') : Prop :=
  match e with
  | elsewhere .. => False
  | _            => True

theorem refines (e : Step str hashKey hashpw s s') (h : s.Invariant) (hc : s.Complete old)
    (hl : e.Local) :
    s'.credit = s.credit ∧ e.createdId? = none ∨
      ∃ e' : Credit.Step s.credit s'.credit, e'.signup? = e.createdId? := by
  cases e
  case commit t user key plaintext row task pending =>
    have hn : ¬s.HasUser user.id := h.not_hasUser (t := t) (by rw [task]; rfl)
    exact .inr ⟨.signup user.id (hc.unknown hn).account rfl, rfl⟩
  case elsewhere => exact hl.elim
  all_goals exact .inl ⟨rfl, rfl⟩

end Step

-- For the credit system, calls that interleave in several steps each are sign-ups in one step, one
-- for every user who is created, and nothing else.
theorem signups_refine (es : Run str hashKey hashpw s₁ s₂) (h : s₁.Initial)
    (hl : es.All Step.Local) :
    ∃ es' : Credit.Run s₁.credit s₂.credit,
      es'.collect Credit.Step.signup? = es.collect Step.createdId? := by
  refine es.simulation_collect (I := fun s => s.Invariant ∧ s.Complete s₁.HasUser) ?_ ?_
    ⟨h.invariant, h.complete⟩ hl
  case refine_1 =>
    exact fun e h _ => ⟨e.preserves_invariant h.left, e.preserves_complete h.left h.right⟩
  case refine_2 => exact fun e h hl => e.refines h.left h.right hl

-- A registration that is rolled back, and one that is not.
theorem signups_refine_of_abort :
    ∃ (s₁ s₂ : State) (es : Run Python.str id (fun p _ => p) s₁ s₂)
      (es' : Credit.Run s₁.credit s₂.credit),
      es.collect Step.createdId? = [8] ∧
      es'.collect Credit.Step.signup? = es.collect Step.createdId? := by
  let s₁ : State := {
    users := ⟨fun _ => none, fun _ => none⟩, accounts := fun _ => none, transactions := [],
    keys := [], tasks := fun _ => .fresh }
  let r : Request := .register ⟨"a@b.c", "password", by decide, by decide⟩ ""
  let n : NewUser := ⟨"a@b.c", some "password", none, none⟩
  let key : VirtualKey := .create id (VirtualKey.defaultCreation 8 9 "x")
  have hn : ∀ (s : State) (id : UUID), s.users.rows = (fun _ => none) →
      (∀ email, s.users.pending email = none) → s.New id := by
    intro s id hr hp email row hv
    obtain hv | ⟨t, hv⟩ := hv
    · rw [hr] at hv; cases hv
    · rw [hp] at hv; cases hv
  have hp : ∀ email, (s₁.users.lock "a@b.c" 1 (some <| n.row 7) |>.rollback "a@b.c").pending email =
      none := by
    intro email
    by_cases he : email = "a@b.c" <;> simp [he, s₁]
  let es : Run Python.str id (fun p _ => p) s₁ _ :=
    .step (.miss 1 r rfl rfl) <|
    .step (.insert 1 n 7 rfl rfl rfl (hn _ _ rfl fun _ => rfl)) <|
    .step (.abort 1 "a@b.c" _ rfl) <|
    .step (.miss 2 r rfl rfl) <|
    .step (.insert 2 n 8 rfl rfl rfl (hn _ _ rfl hp)) <|
    .step (.credit 2 (n.row 8) rfl) <|
    .step (.mint 2 (n.row 8) 9 "x" key rfl rfl) <|
    .step (.commit 2 (n.row 8) key "ag-sk-x" _ rfl rfl) .refl
  have h : s₁.Initial := {
    fresh _     := rfl
    quiet _     := rfl
    email hr    := by cases hr
    ids hr      := by cases hr
    unknown _   := ⟨rfl, by simp [s₁], by simp [s₁]⟩
    linkage hr  := by cases hr }
  have ⟨es', he⟩ := signups_refine es h
    ⟨trivial, trivial, trivial, trivial, trivial, trivial, trivial, trivial, trivial⟩
  exact ⟨s₁, _, es, es', rfl, he⟩

end Signup
