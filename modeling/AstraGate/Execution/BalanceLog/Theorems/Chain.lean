import AstraGate.Execution.BalanceLog.Step
import AstraGate.Services.Theorems.ProviderBalance

open Function

namespace BalanceLog

open Admin PostProcess ProviderBalance

variable {str : ℚ → String} {s s' : State} {t : TaskId} {id : UUID} {p q : Provider}
  {log : ProviderBalanceLog}

def journal : Journal ProviderBalanceLog ℚ where
  before := ProviderBalanceLog.balanceBefore
  amount := ProviderBalanceLog.amountUsd
  after  := ProviderBalanceLog.balanceAfter

-- The rows of every provider's log lead from one balance to the next, and up to the present one.
def State.Chained (s : State) : Prop :=
  ∀ id, ∀ p ∈ s.providers.rows id, journal.Chained (s.logsOf id) p.balanceUsd

-- No change is lost: a balance is what it was before the first row, and all that was logged since.
theorem State.Chained.balance_eq (h : s.Chained) (hp : s.providers.rows id = some p)
    (hl : s.logsOf id = log :: rest) :
    p.balanceUsd = log.balanceBefore + ((log :: rest).map ProviderBalanceLog.amountUsd).sum :=
  Journal.Chained.eq_add_sum (hl ▸ h id p hp)

structure State.Initial (s : State) : Prop where
  fresh   : ∀ t, s.tasks t = .fresh
  quiet   : s.providers.Quiet
  chained : s.Chained

-- The row of the log for a change of a provider's balance.
structure Records (id : UUID) (before after : ℚ) (log : ProviderBalanceLog) : Prop where
  providerId    : log.providerId = id
  balanceBefore : log.balanceBefore = before
  balanceAfter  : log.balanceAfter = after
  amountUsd     : after = before + log.amountUsd

theorem Records.journal (h : Records id before after log) :
    journal.after log = journal.before log + journal.amount log := by
  have ha := h.amountUsd
  rwa [← h.balanceBefore, ← h.balanceAfter] at ha

theorem records_of_deduct {c : Charge}
    (ok : deductProviderBalance id c.baseCost c.requestId c.usageRecordId none (some p) =
      .ok (q, log)) : Records id p.balanceUsd q.balanceUsd log := by
  unfold deductProviderBalance at ok
  split at ok
  case isTrue  => contradiction
  case isFalse => cases ok; exact ⟨rfl, rfl, rfl, sub_eq_add_neg ..⟩

theorem records_of_update {body : ProviderBalanceRequest}
    (ok : updateBalance str id body (some p) = .ok (q, log)) :
    Records id p.balanceUsd q.balanceUsd log := by
  cases ok
  exact ⟨rfl, rfl, rfl, (add_sub_cancel ..).symm⟩

-- What the open transaction of a task has made of the row it has locked: post-processing logs the
-- change of the committed balance, and an update that of the balance it has loaded.
def Task.Writes : Task → UUID → Option Provider → Option Provider → Prop
  | selected i p, id, old, new     => id = i ∧ old = some p ∧ new = some p
  | deducted i p log, id, old, new =>
    id = i ∧ ∃ q, old = some q ∧ new = some p ∧ Records i q.balanceUsd p.balanceUsd log
  | ready i none, id, old, new       => id = i ∧ ∃ p, old = some p ∧ new = some p
  | ready i (some log), id, old, new =>
    id = i ∧ ∃ p q, old = some q ∧ new = some p ∧ Records i q.balanceUsd p.balanceUsd log
  | flushed i loaded log, id, old, new =>
    id = i ∧ ∃ p q, old = some q ∧ new = some p ∧ Records i loaded.balanceUsd p.balanceUsd log
  | _, _, _, _ => False

theorem Task.Writes.unique {task : Task} (h : task.Writes i old new)
    (h' : task.Writes j old' new') : i = j := by
  cases task
  case ready log => cases log <;> exact h.left.trans h'.left.symm
  all_goals first | exact h.left.trans h'.left.symm | contradiction

-- What an update has loaded stays the committed balance until there is a row in the log.
def Task.Anchored (s : State) : Task → Prop
  | read i _ loaded | flushed i loaded _ =>
    s.logsOf i = [] → ∀ p ∈ s.providers.rows i, p.balanceUsd = loaded.balanceUsd
  | kept i loaded log =>
    Records i loaded.balanceUsd loaded.balanceUsd log ∧
      (s.logsOf i = [] → ∀ p ∈ s.providers.rows i, p.balanceUsd = loaded.balanceUsd)
  | _ => True

structure State.Invariant (s : State) : Prop where
  coherent : s.providers.Coherent fun t => (s.tasks t).Writes
  anchored : ∀ t, (s.tasks t).Anchored s

theorem State.Initial.invariant (h : s.Initial) : s.Invariant where
  coherent   := .of_quiet h.quiet
  anchored t := by rw [h.fresh t]; trivial

-- The balance that an update has loaded is still the committed one when it is committed.
def Step.Undisturbed (e : Step str s s') : Prop :=
  match e with
  | commitUpdate _ id loaded .. | commitKept _ id loaded .. =>
    ∀ p ∈ s.providers.rows id, p.balanceUsd = loaded.balanceUsd
  | _ => True

namespace Task.Anchored

variable {task : Task}

-- A step that changes a balance adds a row to the log.
theorem mono (h : task.Anchored s) (hs : ∀ i, s'.logsOf i = [] → s.logsOf i = [] ∧
    ∀ p ∈ s'.providers.rows i, ∃ q ∈ s.providers.rows i, p.balanceUsd = q.balanceUsd) :
    task.Anchored s' := by
  have hl : ∀ {i b}, (s.logsOf i = [] → ∀ p ∈ s.providers.rows i, p.balanceUsd = b) →
      s'.logsOf i = [] → ∀ p ∈ s'.providers.rows i, p.balanceUsd = b := by
    intro i b h hn p hp
    have ⟨hn, hr⟩ := hs i hn
    obtain ⟨q, hq, he⟩ := hr p hp
    exact he.trans (h hn q hq)
  cases task
  case read    => exact hl h
  case flushed => exact hl h
  case kept    => exact ⟨h.left, hl h.right⟩
  all_goals trivial

theorem of_eq (h : task.Anchored s) (hl : ∀ i, s'.logsOf i = s.logsOf i)
    (hr : s'.providers.rows = s.providers.rows) : task.Anchored s' :=
  h.mono fun i hn => ⟨hl i ▸ hn, fun p hp => ⟨p, hr ▸ hp, rfl⟩⟩

theorem append (h : task.Anchored s) : task.Anchored (s.append t log) := by
  refine h.mono fun i hn => ?_
  rw [State.append_logsOf] at hn
  exact ⟨(List.append_eq_nil_iff.mp hn).left, fun p hp => ⟨p, hp, rfl⟩⟩

-- A commit that changes the row of a provider logs it.
theorem commit {log : Option ProviderBalanceLog} (h : task.Anchored s)
    (hl : row = s.providers.rows id ∨ ∃ l, log = some l ∧ l.providerId = id) :
    task.Anchored (s.commit t id row log) := by
  refine h.mono fun i hn => ?_
  rw [State.commit_logsOf] at hn
  have ⟨hn, hf⟩ := List.append_eq_nil_iff.mp hn
  refine ⟨hn, fun p hp => ⟨p, ?_, rfl⟩⟩
  by_cases hi : i = id
  case neg => simpa [hi] using hp
  case pos =>
    subst hi
    cases hl
    case inl he => simpa [he] using hp
    case inr he =>
      obtain ⟨l, rfl, he⟩ := he
      simp [he] at hf

end Task.Anchored

namespace State.Invariant

theorem writes (h : s.Invariant) (ht : s.tasks t = task)
    (hp : s.providers.pending id = some (t, row)) :
    task.Writes id (s.providers.rows id) row :=
  ht ▸ h.coherent hp

theorem eq_of_writes (h : s.Invariant) (hp : s.providers.pending id = some (t, row)) {i old new}
    (hw : (s.tasks t).Writes i old new) : i = id :=
  hw.unique (h.coherent hp)

theorem anchored_of (h : s.Invariant) (ht : s.tasks t = task) : task.Anchored s :=
  ht ▸ h.anchored t

-- A step of task `t`, after which it is at `k`.
theorem of_update (h : s.Invariant) (ht : s'.tasks = update s.tasks t k)
    (hc : s'.providers.Coherent fun t' => (update s.tasks t k t').Writes)
    (hk : k.Anchored s') (hm : ∀ {task : Task}, task.Anchored s → task.Anchored s') :
    s'.Invariant where
  coherent   := ht ▸ hc
  anchored i := by
    rw [ht]
    by_cases hi : i = t
    case pos => simpa [hi] using hk
    case neg => simpa [hi] using hm (h.anchored i)

end State.Invariant

theorem Records.filter_self (h : Records id before after log) :
    [log].filter (fun log => log.providerId = id) = [log] := by
  simp [h.providerId]

theorem Records.filter_of_ne (h : Records id before after log) (hi : i ≠ id) :
    [log].filter (fun log => log.providerId = i) = [] := by
  simp [h.providerId, Ne.symm hi]

-- A new row in the log of provider `id` leaves the logs of the others as they are.
theorem State.Chained.log_iff (h : s.Chained) (hl : Records id before after log)
    (hs : ∀ i, s'.logsOf i = s.logsOf i ++ [log].filter (fun log => log.providerId = i))
    (hr : ∀ i ≠ id, s'.providers.rows i = s.providers.rows i) :
    s'.Chained ↔
      ∀ p ∈ s'.providers.rows id, journal.Chained (s.logsOf id ++ [log]) p.balanceUsd := by
  constructor
  case mp =>
    intro hc p hp
    have hc := hc id p hp
    rwa [hs, hl.filter_self] at hc
  case mpr =>
    intro hc i p hp
    rw [hs]
    by_cases hi : i = id
    case pos =>
      subst hi
      rw [hl.filter_self]
      exact hc p hp
    case neg =>
      rw [hl.filter_of_ne hi, List.append_nil]
      exact h i p (hr i hi ▸ hp)

-- The commit of post-processing or of an update, which logs a change of the balance of provider
-- `id` from what it was when the transaction has read it.
theorem State.Chained.commit_iff (h : s.Chained) (hq : s.providers.rows id = some q)
    (hl : Records id before p.balanceUsd log) :
    (s.commit t id (some p) (some log)).Chained ↔ s.logsOf id = [] ∨ before = q.balanceUsd := by
  rw [h.log_iff hl (fun _ => commit_logsOf) (by simp +contextual), ← hl.balanceBefore]
  have hp : (s.commit t id (some p) (some log)).providers.rows id = some p := by simp
  simp only [hp, Option.mem_some_iff, forall_eq']
  rw [(h id q hq).append_iff hl.journal p.balanceUsd]
  exact and_iff_right hl.balanceAfter

theorem State.Chained.append_iff (h : s.Chained) (hl : Records id b b log) :
    (s.append t log).Chained ↔ ∀ q ∈ s.providers.rows id, q.balanceUsd = b := by
  rw [h.log_iff hl (fun _ => append_logsOf) (fun _ _ => rfl)]
  refine forall₂_congr fun q hq => ?_
  rw [(h id q hq).append_iff hl.journal q.balanceUsd]
  constructor
  case mp  => exact fun hj => hj.left.symm.trans hl.balanceAfter
  case mpr =>
    intro hb
    exact ⟨hl.balanceAfter.trans hb.symm, .inr (hl.balanceBefore.trans hb.symm)⟩

namespace Step

-- Every step that is not a commit leaves the log and the committed rows alone.
theorem preserves_invariant (e : Step str s s') (h : s.Invariant) : s'.Invariant := by
  cases e
  case select task free found =>
    refine h.of_update rfl ?_ trivial (·.of_eq (fun _ => rfl) rfl)
    exact h.coherent.lockTask (by simp [task, Task.Writes]) ⟨rfl, found, rfl⟩
  case skip task =>
    refine h.of_update rfl (h.coherent.setTask fun hw => ?_) trivial (·.of_eq (fun _ => rfl) rfl)
    rw [task] at hw
    exact ⟨hw.left, _, hw.right.left, hw.right.right⟩
  case deduct task locked ok =>
    have ⟨_, ho, _⟩ := h.writes task locked
    refine h.of_update rfl ?_ trivial (·.of_eq (fun _ => rfl) rfl)
    exact h.coherent.lockTask (h.eq_of_writes locked) ⟨rfl, _, ho, rfl, records_of_deduct ok⟩
  case check now p log row task locked =>
    have ⟨_, q, ho, _, hl⟩ := h.writes task locked
    have hp : (checkThresholds now p).provider.balanceUsd = p.balanceUsd :=
      checkThresholds_balanceUsd
    refine h.of_update rfl ?_ trivial (·.of_eq (fun _ => rfl) rfl)
    exact h.coherent.lockTask (h.eq_of_writes locked) ⟨rfl, _, q, ho, rfl, hp ▸ hl⟩
  case commit t id row log task locked =>
    refine h.of_update rfl (h.coherent.commitTask (h.eq_of_writes locked)) trivial (·.commit ?_)
    have hw := h.writes task locked
    cases log
    case none =>
      obtain ⟨-, p, ho, hn⟩ := hw
      exact .inl (hn.trans ho.symm)
    case some log =>
      obtain ⟨-, p, q, -, -, hl⟩ := hw
      exact .inr ⟨log, rfl, hl.providerId⟩
  case read task found =>
    refine h.of_update rfl (h.coherent.setTask (by simp [task, Task.Writes])) ?_
      (·.of_eq (fun _ => rfl) rfl)
    exact fun _ q hq => congrArg _ (Option.some.inj <| hq.symm.trans found)
  case flush task ok changed free found =>
    refine h.of_update rfl ?_ (h.anchored_of task) (·.of_eq (fun _ => rfl) rfl)
    have hl := records_of_update ok
    exact h.coherent.lockTask (by simp [task, Task.Writes]) ⟨rfl, _, _, found, rfl, hl⟩
  case keep task ok unchanged =>
    have hl := records_of_update ok
    refine h.of_update rfl (h.coherent.setTask (by simp [task, Task.Writes])) ?_
      (·.of_eq (fun _ => rfl) rfl)
    exact ⟨unchanged ▸ hl, h.anchored_of task⟩
  case commitUpdate log task locked =>
    refine h.of_update rfl (h.coherent.commitTask (h.eq_of_writes locked)) trivial (·.commit ?_)
    obtain ⟨-, p, q, -, -, hl⟩ := h.writes task locked
    exact .inr ⟨log, rfl, hl.providerId⟩
  case commitKept task =>
    exact h.of_update rfl (h.coherent.setTask (by simp [task, Task.Writes])) trivial (·.append)
  case abort locked =>
    exact h.of_update rfl (h.coherent.rollbackTask (h.eq_of_writes locked)) trivial
      (·.of_eq (fun _ => rfl) rfl)
  case abortUnlocked unlocked =>
    exact h.of_update rfl (h.coherent.endTask fun {i v} => unlocked i v) trivial
      (·.of_eq (fun _ => rfl) rfl)

theorem chained_iff (e : Step str s s') (h : s.Invariant) (hc : s.Chained) :
    s'.Chained ↔ e.Undisturbed := by
  cases e
  case commit t id row log task locked =>
    have hw := h.writes task locked
    refine iff_of_true ?_ trivial
    cases log
    case none =>
      obtain ⟨-, p, ho, hn⟩ := hw
      intro i p' hp'
      rw [State.commit_logsOf]
      by_cases hi : i = id
      case pos => simpa using hc i p' (by simpa [hi, hn, ho] using hp')
      case neg => simpa using hc i p' (by simpa [hi] using hp')
    case some log =>
      obtain ⟨-, p, q, ho, rfl, hl⟩ := hw
      exact (hc.commit_iff ho hl).mpr (.inr rfl)
  case commitUpdate loaded row log task locked =>
    obtain ⟨-, p, q, ho, rfl, hl⟩ := h.writes task locked
    rw [hc.commit_iff ho hl, Undisturbed, ho]
    simp only [Option.mem_def, Option.some.injEq, forall_eq']
    constructor
    case mp =>
      intro hb
      cases hb
      case inl hn => exact h.anchored_of task hn q ho
      case inr hb => exact hb.symm
    case mpr => exact fun hb => .inr hb.symm
  case commitKept task => exact hc.append_iff (h.anchored_of task).left
  all_goals exact iff_of_true hc trivial

end Step

-- In every run, the log of every provider chains exactly as long as each update is committed on the
-- balance that it has read.
theorem visits_chained_iff (es : Run str s s') (hi : s.Initial) :
    es.Visits State.Chained ↔ es.All Step.Undisturbed := by
  refine es.all_iff_all (I := fun s => s.Invariant ∧ s.Chained) ?_ ?_ ⟨hi.invariant, hi.chained⟩
  case refine_1 => exact fun e h hc => ⟨e.preserves_invariant h.left, hc⟩
  case refine_2 => exact fun e h => e.chained_iff h.left h.right

-- A deduction of $2 is committed after an update to $100 has read a balance of $50, and lost.
theorem not_visits_chained_of_stale_read :
    ¬∀ (s s' : State) (es : Run (fun _ => "") s s'), s.Initial → es.Visits State.Chained := by
  intro h
  let p : Provider := ⟨"openai", 50, 10, 2, .normal, none, none, none, true⟩
  let s : State := ⟨⟨fun _ => some p, fun _ => none⟩, [], fun _ => .fresh⟩
  let body : ProviderBalanceRequest := ⟨100, none, by decide +kernel⟩
  let c : Charge := ⟨0, "r", 1, 2⟩
  let es : Run (fun _ => "") s _ :=
    .step (.read 0 1 body p rfl rfl) <|
    .step (.select 1 1 p rfl rfl rfl) <|
    .step (.deduct 1 1 c p _ _ _ rfl rfl rfl) <|
    .step (.check 1 1 0 _ _ _ rfl rfl) <|
    .step (.commit 1 1 _ _ rfl rfl) <|
    .step (.flush 0 1 body p _ _ _ rfl rfl (by decide +kernel) rfl rfl) <|
    .step (.commitUpdate 0 1 p _ _ rfl rfl) .refl
  have hv := h s _ es ⟨fun _ => rfl, fun _ => rfl, fun _ _ _ => Journal.chained_nil⟩
  have hc := hv.right.right.right.right.right.right.left 1 _ rfl
  exact absurd (List.isChain_cons_cons.mp hc.links).left (by decide +kernel)

-- An update that starts after the commit of a deduction goes on from its row.
theorem visits_chained_of_fresh_read :
    ∃ (s s' : State) (es : Run (fun _ => "") s s'),
      (s'.logsOf 1).length = 2 ∧ es.Visits State.Chained := by
  let p : Provider := ⟨"openai", 50, 10, 2, .normal, none, none, none, true⟩
  let s : State := ⟨⟨fun _ => some p, fun _ => none⟩, [], fun _ => .fresh⟩
  let body : ProviderBalanceRequest := ⟨100, none, by decide +kernel⟩
  let c : Charge := ⟨0, "r", 1, 2⟩
  let es : Run (fun _ => "") s _ :=
    .step (.select 1 1 p rfl rfl rfl) <|
    .step (.deduct 1 1 c p _ _ _ rfl rfl rfl) <|
    .step (.check 1 1 0 _ _ _ rfl rfl) <|
    .step (.commit 1 1 _ _ rfl rfl) <|
    .step (.read 0 1 body _ rfl rfl) <|
    .step (.flush 0 1 body _ _ _ _ rfl rfl (by decide +kernel) rfl rfl) <|
    .step (.commitUpdate 0 1 _ _ _ rfl rfl) .refl
  refine ⟨s, _, es, rfl, (visits_chained_iff es ?_).mpr ?_⟩
  case refine_1 => exact ⟨fun _ => rfl, fun _ => rfl, fun _ _ _ => Journal.chained_nil⟩
  case refine_2 =>
    refine ⟨trivial, trivial, trivial, trivial, trivial, trivial, ?_, trivial⟩
    exact fun _ hp => Option.some.inj hp ▸ rfl

end BalanceLog
