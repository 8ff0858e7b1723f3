import AstraGate.Execution.LowCredit.Step

open Function

namespace PostProcess

theorem shouldSendLowBalanceAlert_iff : shouldSendLowBalanceAlert now account ↔
    ∃ amount, account.lastTopupAmount = some amount ∧ amount ≠ 0 ∧
      account.balanceUsd < amount * (20 / 100) ∧
      ∀ last ∈ account.lowBalanceAlertSentAt, last + lowBalanceAlertCooldown < now := by
  unfold shouldSendLowBalanceAlert
  cases account.lastTopupAmount
  case none        => simp
  case some amount =>
    by_cases h : amount = 0
    case pos => simp [h, Option.filter_some]
    case neg => simp [h, Option.filter_some, Option.all_eq_true]

end PostProcess

namespace LowCredit

open PostProcess

-- When the user of a row was last mailed, as far as the row tells.
def sentAt (row : Option CreditAccount) : Option Time :=
  row.bind (·.lowBalanceAlertSentAt)

theorem sentAt_store : sentAt (account.map CreditAccount.store) = sentAt account := by
  cases account <;> rfl

theorem sentAt_settled :
    sentAt (settled userId actualCost usageRecordId heldAmount account) = sentAt account := by
  cases account <;> rfl

theorem sentAt_check : sentAt (account.map <| checkLowBalance now sent) =
    if mails now sent account then some now else sentAt account := by
  cases account
  case none => rfl
  case some account =>
    change (checkLowBalance now sent account).lowBalanceAlertSentAt =
      if shouldSendLowBalanceAlert now account && sent then some now
      else account.lowBalanceAlertSentAt
    unfold checkLowBalance
    split_ifs <;> rfl

theorem of_mails (h : mails now sent account) :
    ∃ a, account = some a ∧ shouldSendLowBalanceAlert now a := by
  cases account
  case none   => contradiction
  case some a =>
    rw [mails, Bool.and_eq_true] at h
    exact ⟨a, rfl, h.left⟩

-- A balance below a fifth of the last top-up.
def Low (account : CreditAccount) : Prop :=
  ∃ amount ∈ account.lastTopupAmount, account.balanceUsd < amount * (20 / 100)

-- What a transaction has made of the row of its user so far.
def Effect : Task → UUID → (old new : Option CreditAccount) → Prop
  | .settled userId account, u, old, new =>
    u = userId ∧ new = account.map CreditAccount.store ∧
      ∃ actualCost usageRecordId heldAmount,
        account = settled userId actualCost usageRecordId heldAmount old
  | .checked userId mailed, u, old, new => u = userId ∧ (mailed = false → sentAt new = sentAt old)
  | .crediting userId, u, _, new        => u = userId ∧ sentAt new = none
  | .adjusting userId, u, old, new      => u = userId ∧ sentAt new = sentAt old
  | _, _, _, _                          => False

theorem not_effect_fresh : ¬Effect .fresh u old new :=
  id

theorem Effect.unique (h₁ : Effect k i old₁ new₁) (h₂ : Effect k j old₂ new₂) : j = i := by
  cases k <;> try contradiction
  all_goals exact h₂.left.trans h₁.left.symm

namespace State

variable {s : State}

def Coherent (s : State) : Prop :=
  s.accounts.Coherent fun t => Effect (s.tasks t)

-- Nothing has started, and no row is locked.
structure Initial (s : State) : Prop where
  quiet : s.accounts.Quiet
  fresh : ∀ t, s.tasks t = .fresh

theorem owner_of_fresh (h : s.tasks t = .fresh) (he : Effect (s.tasks t) j old new) : j = userId :=
  not_effect_fresh (h ▸ he) |>.elim

theorem Coherent.effect (h : s.Coherent) (task : s.tasks t = k)
    (locked : s.accounts.pending userId = some (t, new)) :
    Effect k userId (s.accounts.rows userId) new :=
  task ▸ h locked

theorem Initial.coherent (h : s.Initial) : s.Coherent :=
  .of_quiet h.quiet

-- The version of a user's row that a transaction will commit for sure, as it has mailed the user,
-- or else the committed row.
def row (s : State) (u : UUID) : Option CreditAccount :=
  s.accounts.pending u
    |>.filter (fun p => (s.tasks p.1).mailed)
    |>.elim (s.accounts.rows u) Prod.snd

theorem row_of_free (h : s.accounts.Free u) : s.row u = s.accounts.rows u := by
  rw [row, h]
  rfl

theorem row_of_locked (h : s.accounts.pending u = some (t, new)) :
    s.row u = if (s.tasks t).mailed then new else s.accounts.rows u := by
  rw [row, h, Option.filter_some]
  split_ifs <;> rfl

-- A step of the transaction `t` leaves the rows of all other users as they are.
theorem row_of_ne (h : s.Coherent) (ho : ∀ {j old new}, Effect (s.tasks t) j old new → j = userId)
    (hu : u ≠ userId) {s' : State} (hr : s'.accounts.rows u = s.accounts.rows u)
    (hp : s'.accounts.pending u = s.accounts.pending u) (ht : s'.tasks = update s.tasks t k) :
    s'.row u = s.row u := by
  cases hl : s.accounts.pending u
  case none => rw [row_of_free (hp.trans hl), row_of_free hl, hr]
  case some p =>
    have hn : p.1 ≠ t := fun he => hu (ho <| he ▸ h hl)
    rw [row_of_locked (hp.trans hl), row_of_locked hl, hr, ht, update_of_ne hn]

theorem row_of_unsent (h : s.accounts.pending u = some (t, new))
    (hu : (s.tasks t).mailed = false) : s.row u = s.accounts.rows u := by
  simp [row_of_locked h, hu]

section Transaction

variable (h : s.Coherent) (ho : ∀ {j old new}, Effect (s.tasks t) j old new → j = userId)

include h ho

theorem row_lock : (s.lock t userId account task).row u =
    if u = userId ∧ task.mailed then account.map CreditAccount.store
    else if u = userId then s.accounts.rows u else s.row u := by
  by_cases hu : u = userId
  case pos =>
    subst hu
    have hp : (s.lock t u account task).accounts.pending u = some (t, account.map .store) :=
      update_self ..
    rw [row_of_locked hp]
    simp [lock, setTask]
  case neg =>
    simp only [hu, false_and, if_false]
    exact row_of_ne h ho hu rfl (update_of_ne hu ..) rfl

omit ho in
theorem row_lock_of_fresh (ht : s.tasks t = .fresh) (hf : s.accounts.Free userId)
    (hm : task.mailed = false) : (s.lock t userId account task).row u = s.row u := by
  rw [row_lock h (owner_of_fresh ht), hm]
  by_cases hu : u = userId
  case pos => simp [hu, row_of_free hf]
  case neg => simp [hu]

theorem row_commit : (s.commit t userId new).row u = if u = userId then new else s.row u := by
  by_cases hu : u = userId
  case pos =>
    subst hu
    have hf : (s.commit t u new).accounts.Free u := update_self ..
    rw [if_pos rfl, row_of_free hf]
    exact update_self ..
  case neg =>
    rw [if_neg hu]
    exact row_of_ne h ho hu (update_of_ne hu ..) (update_of_ne hu ..) rfl

omit ho in
theorem sentAt_row_commit (hl : s.accounts.pending userId = some (t, new))
    (hs : sentAt new = sentAt (s.row userId)) :
    sentAt ((s.commit t userId new).row u) = sentAt (s.row u) := by
  rw [row_commit h (h hl).unique]
  split_ifs with hu
  case pos => rw [hs, hu]
  case neg => rfl

omit ho in
theorem row_rollback (hl : s.accounts.pending userId = some (t, new))
    (hm : (s.tasks t).mailed = false) : (s.rollback t userId).row u = s.row u := by
  by_cases hu : u = userId
  case pos =>
    subst hu
    have hf : (s.rollback t u).accounts.Free u := update_self ..
    rw [row_of_free hf, row_of_unsent hl hm]
    rfl
  case neg => exact row_of_ne h (h hl).unique hu rfl (update_of_ne hu ..) rfl

end Transaction

theorem Coherent.settled (h : s.Coherent) (task : s.tasks t = .settled userId account)
    (locked : s.accounts.pending userId = some (t, new)) :
    ∃ actualCost usageRecordId heldAmount, account =
      LowCredit.settled userId actualCost usageRecordId heldAmount (s.accounts.rows userId) :=
  (h.effect task locked).right.right

end State

-- When the user was last mailed, after the event.
def Event.sentAt : Event → Option Time
  | mail sentAt => some sentAt
  | topup       => none

namespace Step

variable {s s' : State}

theorem preserves_coherent (e : Step s s') (h : s.Coherent) : s'.Coherent := by
  cases e
  case tick => exact h
  case settle t userId actualCost usageRecordId heldAmount task free =>
    have ho : ∀ {j old new}, Effect (s.tasks t) j old new → j = userId := State.owner_of_fresh task
    exact h.lockTask ho ⟨rfl, rfl, _, _, _, rfl⟩
  case check t userId account sent row task locked =>
    have ho : ∀ {j old new}, Effect (s.tasks t) j old new → j = userId := (h locked).unique
    obtain ⟨_, _, _, hs⟩ := h.settled task locked
    refine h.lockTask ho ⟨rfl, fun hm => ?_⟩
    rw [sentAt_store, sentAt_check, hm, hs, sentAt_settled]
    rfl
  case topup t userId amount paymentIntentId account task free found =>
    have ho : ∀ {j old new}, Effect (s.tasks t) j old new → j = userId := State.owner_of_fresh task
    exact h.lockTask ho ⟨rfl, sentAt_store⟩
  case adjust t userId balanceUsd account task free found =>
    have ho : ∀ {j old new}, Effect (s.tasks t) j old new → j = userId := State.owner_of_fresh task
    exact h.lockTask ho ⟨rfl, by rw [sentAt_store, found]; rfl⟩
  case abort t userId row locked unsent => exact h.rollbackTask (h locked).unique
  all_goals
    rename_i locked
    exact h.commitTask (h locked).unique

-- Only the events of a user change when the user's row, as it is going to be, was last mailed.
theorem sentAt_row (e : Step s s') (h : s.Coherent) :
    sentAt (s'.row u) = (e.event? u).elim (sentAt (s.row u)) Event.sentAt := by
  cases e <;> simp only [event?]
  case tick => rfl
  case settle t userId actualCost usageRecordId heldAmount task free =>
    rw [State.settle, State.row_lock_of_fresh h task free rfl]
    rfl
  case check t userId account sent row task locked =>
    have hr : s.row userId = s.accounts.rows userId :=
      State.row_of_unsent locked (by rw [task]; rfl)
    rw [State.check, State.row_lock h (h locked).unique]
    by_cases hu : u = userId
    case pos =>
      subst hu
      by_cases hm : mails s.now sent account
      case pos =>
        simp only [hm, Task.mailed, and_self, if_true, sentAt_store, sentAt_check]
        rfl
      case neg => simp [hm, Task.mailed, hr]
    case neg => simp [hu, Ne.symm hu]
  case commit t userId mailed row task locked =>
    refine State.sentAt_row_commit h locked ?_
    rw [State.row_of_locked locked, task]
    cases mailed
    case false => exact (h.effect task locked).right rfl
    case true  => rfl
  case topup t userId amount paymentIntentId account task free found =>
    rw [State.topup, State.row_lock_of_fresh h task free rfl]
    rfl
  case commitTopup t userId row task locked =>
    rw [State.row_commit h (h locked).unique]
    by_cases hu : u = userId
    case pos => simp [hu, (h.effect task locked).right, Event.sentAt]
    case neg => simp [hu, Ne.symm hu]
  case adjust t userId balanceUsd account task free found =>
    rw [State.adjust, State.row_lock_of_fresh h task free rfl]
    rfl
  case commitAdjust t userId row task locked =>
    refine State.sentAt_row_commit h locked ?_
    rw [State.row_of_locked locked, task]
    exact (h.effect task locked).right
  case abort t userId row locked unsent =>
    rw [State.row_rollback h locked unsent]
    rfl

-- A mail goes out later than the last one of its user, by more than the cooldown.
theorem lt_of_mail (e : Step s s') (h : s.Coherent) (he : e.event? u = some (.mail t))
    (hl : sentAt (s.row u) = some last) : last + lowBalanceAlertCooldown < t := by
  cases e <;> simp only [event?, reduceCtorEq] at he
  case check t userId account sent row task locked =>
    split_ifs at he with hm
    obtain ⟨rfl, hm⟩ := hm
    cases he
    obtain ⟨account, rfl, hs⟩ := of_mails hm
    rw [State.row_of_unsent locked (by rw [task]; rfl)] at hl
    obtain ⟨_, _, _, hc⟩ := h.settled task locked
    rw [← sentAt_settled, ← hc] at hl
    have ⟨_, _, _, _, hlt⟩ := shouldSendLowBalanceAlert_iff.mp hs
    exact hlt last hl
  case commitTopup => split_ifs at he; cases he

-- The account that a step mails its user about has a low balance, and is what the settlement of a
-- charge has made of the committed row.
def MailsWhenLow (e : Step s s') : Prop :=
  match e with
  | check _ userId account sent .. => mails s.now sent account →
    (∃ a ∈ account, Low a) ∧ ∃ actualCost usageRecordId heldAmount,
      account = settled userId actualCost usageRecordId heldAmount (s.accounts.rows userId)
  | _ => True

theorem mailsWhenLow (e : Step s s') (h : s.Coherent) : e.MailsWhenLow := by
  cases e
  case check t userId account sent row task locked =>
    intro hm
    obtain ⟨a, rfl, hs⟩ := of_mails hm
    have ⟨amount, ha, _, hb, _⟩ := shouldSendLowBalanceAlert_iff.mp hs
    exact ⟨⟨a, rfl, amount, ha, hb⟩, h.settled task locked⟩
  all_goals trivial

end Step

-- Mails that no completed top-up separates are more than the cooldown apart.
def Spaced (events : List Event) : Prop :=
  ∀ ⦃pre mid post t t'⦄, events = pre ++ .mail t :: mid ++ .mail t' :: post → .topup ∉ mid →
    t + lowBalanceAlertCooldown < t'

-- The events of a user who was last mailed at `last`, as far as a mail takes notice of that.
def Since : (last : Option Time) → List Event → Prop
  | _, []                   => True
  | last, .mail t :: events =>
    (∀ l, last = some l → l + lowBalanceAlertCooldown < t) ∧ Since (some t) events
  | _, .topup :: events     => Since none events

namespace Since

theorem of_append (h : Since last (pre ++ events)) : ∃ last, Since last events := by
  induction pre generalizing last
  case nil => exact ⟨last, h⟩
  case cons event pre ih =>
    cases event
    case mail t => exact ih h.right
    case topup  => exact ih h

theorem lt (h : Since (some t) (mid ++ .mail t' :: post)) (hn : .topup ∉ mid) :
    t + lowBalanceAlertCooldown < t' := by
  induction mid generalizing t
  case nil => exact h.left t rfl
  case cons event mid ih =>
    have ⟨he, hm⟩ := List.ne_and_not_mem_of_not_mem_cons hn
    cases event
    case mail t₁ =>
      calc t + lowBalanceAlertCooldown
        _ < t₁                           := h.left t rfl
        _ ≤ t₁ + lowBalanceAlertCooldown := Nat.le_add_right ..
        _ < t'                           := ih h.right hm
    case topup => contradiction

theorem spaced (h : Since last events) : Spaced events := by
  intro pre mid post t t' he hn
  rw [he, List.append_assoc] at h
  have ⟨_, h⟩ := h.of_append
  exact lt h.right hn

end Since

theorem since_sentAt (es : Run s s') (h : s.Coherent) :
    Since (sentAt (s.row u)) (es.collect <| Step.event? u) := by
  induction es
  case refl => trivial
  case step e es ih =>
    have ih := ih (e.preserves_coherent h)
    rw [e.sentAt_row h] at ih
    rw [Steps.collect]
    cases he : e.event? u <;> rw [he] at ih
    case none       => exact ih
    case some event =>
      cases event
      case mail t => exact ⟨fun _ hl => e.lt_of_mail h he hl, ih⟩
      case topup  => exact ih

-- Mails in all runs: each one tells of a low balance, and they respect their cooldown.
theorem mails_respect_cooldown (es : Run s s') (h : s.Initial) :
    es.All Step.MailsWhenLow ∧ ∀ u, Spaced (es.collect <| Step.event? u) := by
  have hl : es.All Step.MailsWhenLow :=
    es.all_of_preserved (I := State.Coherent) (fun e => e.preserves_coherent)
      (fun e hc => e.mailsWhenLow hc) h.coherent
  exact ⟨hl, fun _ => (since_sentAt es h.coherent).spaced⟩

-- Two charges of $4 against $5 that are left of $10, one of them a day and a millisecond later.
theorem mails_respect_cooldown_twice : ∃ (s s' : State) (es : Run s s'),
    es.collect (Step.event? 1) = [.mail 0, .mail 86400001] ∧
      es.All Step.MailsWhenLow ∧ ∀ u, Spaced (es.collect <| Step.event? u) := by
  let s : State := {
    now      := 0
    accounts := { rows := fun _ => some ⟨5, some 10, none, none⟩, pending := fun _ => none }
    tasks    := fun _ => .fresh }
  let es : Run s _ :=
    .step (.settle 0 1 4 7 none rfl rfl) <|
    .step (.check 0 1 _ true _ rfl rfl) <|
    .step (.commit 0 1 _ _ rfl rfl) <|
    .step (.tick 86400001) <|
    .step (.settle 1 1 4 8 none rfl rfl) <|
    .step (.check 1 1 _ true _ rfl rfl) .refl
  exact ⟨s, _, es, by decide +kernel, mails_respect_cooldown es ⟨fun _ => rfl, fun _ => rfl⟩⟩

end LowCredit
