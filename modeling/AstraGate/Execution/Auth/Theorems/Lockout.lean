import AstraGate.Execution.Auth.Step

open Function

namespace Auth

variable {str : UUID → String} {verifyPassword : String → String → Bool} {s s' s₁ s₂ s₃ : State}
  {user : User} {email : String}

-- Only a login for the account that succeeds changes its row.
theorem Step.byEmail_of_failed (e : Step str verifyPassword s s')
    (h : ∀ a ∈ e.attempt? email, a.Failed) : s'.users.byEmail email = s.users.byEmail email := by
  cases e
  case tick => rfl
  case login body clock _ =>
    cases hr : (Auth.login str verifyPassword body clock s.users s.attempts).1
    case error => exact congrArg (·.byEmail email) <| getDb_rows_of_error hr
    case ok =>
      by_cases he : body.email = email
      case pos =>
        have ⟨e, ha⟩ := h _ (if_pos he)
        exact nomatch ha.symm.trans <| getDb_result.trans hr
      case neg =>
        simp only [State.login, State.respond, getDb_of_ok hr]
        exact login_byEmail_of_ok hr (Ne.symm he)

-- Whether an account is locked is decided by the row that the call finds.
theorem Step.refused_iff (e : Step str verifyPassword s s')
    (hu : s.users.byEmail email = some user) :
    ∀ a ∈ e.attempt? email, a.Refused ↔ ∃ till ∈ user.lockedUntil, a.clock.tested < till := by
  intro a ha
  cases e
  case tick => contradiction
  case login body clock _ =>
    by_cases he : body.email = email
    case pos =>
      subst he
      simp only [attempt?, if_true, Option.mem_def, Option.some.injEq] at ha
      subst ha
      simp only [Attempt.Refused, State.respond, getDb_result]
      exact login_locked_iff hu
    case neg => simp [attempt?, he] at ha

-- No login writes a lock that stays.
theorem Step.preserves_unlocked (e : Step str verifyPassword s s')
    (h : ∃ user, s.users.byEmail email = some user ∧ user.lockedUntil = none) :
    ∃ user, s'.users.byEmail email = some user ∧ user.lockedUntil = none := by
  cases e
  case tick => exact h
  case login body clock _ =>
    cases hr : (Auth.login str verifyPassword body clock s.users s.attempts).1
    case error =>
      simp only [State.login, State.respond, getDb_rows_of_error hr]
      exact h
    case ok =>
      have ⟨user, _, hu, _, _, _, _, hs⟩ := login_eq_ok hr
      simp only [State.login, State.respond, getDb_of_ok hr, hs, resetFailedLogin,
        Users.put_byEmail]
      by_cases he : email = user.email
      case pos => exact ⟨_, by rw [he, update_self], rfl⟩
      case neg => rwa [update_of_ne he]

-- So an account without a lock, such as a new one, is never locked, whatever fails.
theorem Run.not_refused_of_unlocked (es : Run str verifyPassword s₁ s₂)
    (h : ∃ user, s₁.users.byEmail email = some user ∧ user.lockedUntil = none) :
    ∀ a ∈ es.attempts email, ¬a.Refused := by
  refine Steps.forall_mem_collect.mpr <| es.all_of_preserved
    (fun e h => e.preserves_unlocked h) (fun e ⟨user, hu, hn⟩ a ha hr => ?_) h
  have ⟨till, ht, _⟩ := (e.refused_iff hu a ha).mp hr
  simp [hn] at ht

-- Ten failed logins for an account in less than the time of a lockout, and the logins for it in the
-- time of a lockout after them.
structure Lockout (failures laters : List Attempt) : Prop where
  count  : failures.length = maxFailedAttempts
  failed : ∀ a ∈ failures, a.Failed
  within : ∀ a ∈ failures, ∀ b ∈ failures, b.clock.recorded ≤ a.clock.tested + lockout
  during : ∀ a ∈ failures.getLast?, ∀ b ∈ laters, b.clock.tested < a.clock.recorded + lockout

-- An exception undoes the lock that it comes with, so that the logins after ten failures are
-- refused exactly if the account has been locked before them already.
theorem refused_iff_locked (es : Run str verifyPassword s₁ s₂) (fs : Run str verifyPassword s₂ s₃)
    (hu : s₁.users.byEmail email = some user)
    (hl : Lockout (es.attempts email) (fs.attempts email)) :
    (∀ a ∈ fs.attempts email, a.Refused) ↔
      ∀ a ∈ fs.attempts email, ∃ till ∈ user.lockedUntil, a.clock.tested < till := by
  have hf : es.All (fun e => ∀ a ∈ e.attempt? email, a.Failed) :=
    Steps.forall_mem_collect.mp hl.failed
  have hu₂ : s₂.users.byEmail email = some user :=
    es.invariant_of_all (I := (·.users.byEmail email = some user))
      (fun e hu hf => (e.byEmail_of_failed hf).trans hu) hu hf
  simp only [Run.attempts, Steps.forall_mem_collect]
  refine fs.all_iff_all (I := (·.users.byEmail email = some user)) (fun e hu hr => ?_)
    (fun e hu => forall₂_congr (e.refused_iff hu)) hu₂
  exact (e.byEmail_of_failed fun a ha => (hr a ha).imp fun _ => And.left).trans hu

-- An account with the password "right", which `register` leaves without a lock.
def account (lockedUntil : Option Time) : Users where
  byEmail := fun email => if email = "a@b.c" then some {
    id := 1, email, passwordHash := some "right", role := "customer", isActive := true,
    failedLoginAttempts := 0, lockedUntil } else none
  email   := by
    intro e user h
    split at h <;> cases h
    rfl

abbrev EqRun := Run (fun _ => "1") (fun password hash => password == hash)

-- Logins with some passwords, one right after the other.
def guess : (passwords : List String) → (s : State) → (s' : State) × EqRun s s'
  | [],      s => ⟨s, .refl⟩
  | p :: ps, s =>
    let r := guess ps _
    ⟨r.1, .step (.login ⟨"a@b.c", p⟩ ⟨s.now, s.now, s.now, le_rfl, le_rfl⟩ le_rfl) r.2⟩

def withAccount (lockedUntil : Option Time) : State where
  now      := 0
  users    := account lockedUntil
  attempts := fun _ => none

theorem lockout_guess {lockedUntil : Option Time} (h : lockedUntil ∈ [none, some 1]) :
    let es := guess (List.replicate 10 "wrong") (withAccount lockedUntil)
    Lockout (es.2.attempts "a@b.c") ((guess ["right"] es.1).2.attempts "a@b.c") := by
  simp only [List.mem_cons, List.not_mem_nil, or_false] at h
  obtain rfl | rfl := h
  all_goals
    constructor
    case count  => decide +kernel
    case failed => decide +kernel
    case within => decide +kernel
    case during => decide +kernel

-- An account that has been locked before the failures.
theorem refused_of_locked : ∃ (s₁ s₂ s₃ : State) (es : EqRun s₁ s₂) (fs : EqRun s₂ s₃),
    (es.attempts "a@b.c").length = 10 ∧ (fs.attempts "a@b.c").length = 1 ∧
      ∀ a ∈ fs.attempts "a@b.c", a.Refused := by
  let es := guess (List.replicate 10 "wrong") (withAccount (some 1))
  let fs := guess ["right"] es.1
  have hr := refused_iff_locked es.2 fs.2 rfl (lockout_guess <| by simp)
  exact ⟨_, _, _, es.2, fs.2, rfl, rfl, hr.mpr (by decide +kernel)⟩

-- After ten wrong passwords the right one is let in.
theorem not_refused_of_registered : ∃ (s₁ s₂ s₃ : State) (es : EqRun s₁ s₂) (fs : EqRun s₂ s₃),
    s₁.users = account none ∧ Lockout (es.attempts "a@b.c") (fs.attempts "a@b.c") ∧
      ∃ a ∈ fs.attempts "a@b.c", ∃ tokens, a.result = .ok tokens := by
  let es := guess (List.replicate 10 "wrong") (withAccount none)
  let fs := guess ["right"] es.1
  exact ⟨_, _, _, es.2, fs.2, rfl, lockout_guess (by simp), _, List.mem_cons_self, _, rfl⟩

end Auth
