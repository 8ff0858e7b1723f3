import AstraGate.Execution.PostProcess.Step

open Function

namespace PostProcess

-- The debit that belongs to a usage record that is not a cache hit, and the deduction.
structure Debits (record : UsageRecord) (tx : CreditTransaction) : Prop where
  refers : tx.usageRecordId = some record.id
  type   : tx.type = .usage
  amount : tx.amountUsd = -record.billedAmountUsd

structure Deducts (record : UsageRecord) (log : ProviderBalanceLog) : Prop where
  refers : log.usageRecordId = some record.id
  type   : log.changeType = "usage_deduct"
  amount : log.amountUsd = -record.baseCostUsd

namespace Work

variable (w : Work)

theorem of_record {p : UsageRecord → Prop}
    (h : ∀ id now model provider, p (usageRecord id now w.args model provider w.bill).store) :
    p w.record := by
  have ⟨_, _, _, _, hr⟩ := w.recorded
  exact hr ▸ h ..

theorem record_virtualKeyId : w.record.virtualKeyId = w.args.virtualKeyId :=
  w.of_record (p := (·.virtualKeyId = w.args.virtualKeyId)) (fun _ _ _ _ => rfl)

theorem record_totalTokens : w.record.totalTokens = w.bill.tokens.totalTokens :=
  w.of_record (p := (·.totalTokens = w.bill.tokens.totalTokens)) (fun _ _ _ _ => rfl)

theorem record_cacheHit : w.record.cacheHit = w.bill.cacheHit :=
  w.of_record (p := (·.cacheHit = w.bill.cacheHit)) (fun _ _ _ _ => rfl)

theorem record_baseCostUsd : w.record.baseCostUsd = Numeric.quantize 6 w.bill.baseCost :=
  w.of_record (p := (·.baseCostUsd = Numeric.quantize 6 w.bill.baseCost)) (fun _ _ _ _ => rfl)

theorem record_billedAmountUsd :
    w.record.billedAmountUsd = Numeric.quantize 6 w.bill.billedAmount :=
  w.of_record (p := (·.billedAmountUsd = Numeric.quantize 6 w.bill.billedAmount))
    (fun _ _ _ _ => rfl)

-- What the call inserts into a ledger: one row that belongs to its usage record, or none for a
-- response from the cache.
def Books (R : UsageRecord → α → Prop) (rows : List α) : Prop :=
  if w.bill.cacheHit then rows = [] else ∃ row, rows = [row] ∧ R w.record row

def Settled : Prop :=
  w.Books Debits w.txs

def Deducted : Prop :=
  w.Books Deducts w.logs

variable {w} {R : UsageRecord → α → Prop} {rows : List α}

theorem books_iff_of_hit (hc : w.bill.cacheHit) : w.Books R rows ↔ rows = [] := by
  rw [Books, if_pos hc]

theorem books_iff_of_miss (hc : ¬w.bill.cacheHit) :
    w.Books R rows ↔ ∃ row, rows = [row] ∧ R w.record row := by
  rw [Books, if_neg hc]

theorem Books.forall_mem (h : w.Books R rows) : ∀ row ∈ rows, R w.record row := by
  by_cases hc : w.bill.cacheHit
  case pos => simp [(books_iff_of_hit hc).mp h]
  case neg =>
    have ⟨row, hr, hd⟩ := (books_iff_of_miss hc).mp h
    simp [hr, hd]

theorem settled_settleCredit {account : CreditAccount} (hc : ¬w.bill.cacheHit) :
    { w with txs := (Credit.settleCredit w.args.userId w.bill.billedAmount (some w.record.id)
      heldAmount (some account)).2.map CreditTransaction.store : Work }.Settled := by
  refine (books_iff_of_miss hc).mpr ⟨_, rfl, rfl, rfl, ?_⟩
  rw [record_billedAmountUsd, ← Numeric.quantize_neg]
  rfl

theorem deducted_deductProviderBalance {id : UUID} {provider : Option Provider}
    (hc : ¬w.bill.cacheHit)
    (h : ProviderBalance.deductProviderBalance id w.bill.baseCost requestId (some w.record.id) none
      provider = .ok (p, log)) :
    { w with provider := p, logs := [log.store] : Work }.Deducted := by
  unfold ProviderBalance.deductProviderBalance at h
  split at h
  case isTrue => contradiction
  case isFalse =>
    cases provider
    case none => contradiction
    case some =>
      cases h
      refine (books_iff_of_miss hc).mpr ⟨_, rfl, rfl, rfl, ?_⟩
      rw [record_baseCostUsd, ← Numeric.quantize_neg]
      rfl

end Work

-- Which rows a call has inserted when it has come so far.
def Phase.Booked (w : Work) : Phase → Prop
  | inserted | looked _    => w.txs = [] ∧ w.logs = []
  | adjusted account       => w.Settled ∧ w.logs = [] ∧ account.isSome
  | cleaned account        => w.Settled ∧ w.logs = [] ∧ (¬w.bill.cacheHit → account.isSome)
  | alerted                => w.Settled ∧ ¬w.bill.cacheHit
  | deducted | checked     => w.Settled ∧ w.Deducted
  | bumped                 => w.Settled ∧ w.Deducted

theorem Phase.Booked.of_isLast {phase : Phase} {w : Work} (h : phase.Booked w)
    (hl : phase.isLast w.bill.cacheHit) : w.Settled ∧ w.Deducted := by
  cases phase <;> try contradiction
  case cleaned => exact ⟨h.left, (Work.books_iff_of_hit hl).mpr h.right.left⟩
  case checked => exact h

namespace Task

def Booked (users : Set UUID) : Task → Prop
  | working phase w => w.args.userId ∈ users ∧ phase.Booked w
  | _               => True

-- What the open transaction of a task makes of the row of a key that it has locked.
def Writes : Task → UUID → Option VirtualKey → Option VirtualKey → Prop
  | working .bumped w, id, old, new => id = w.args.virtualKeyId ∧
    ∃ key now, old = some key ∧ new = some (bumpCounters now w.bill.tokens.totalTokens key)
  | written, _, old, new =>
    ∃ key change now, old = some key ∧ new = some (KeyUpdate.apply now key change)
  | _, _, _, _ => False

theorem not_writes_of_isLast {phase : Phase} {i : UUID} (h : phase.isLast w.bill.cacheHit) :
    ¬(working phase w).Writes i old new := by
  cases phase <;> first | contradiction | exact id

end Task

-- No two records that are committed, or are to be committed, have the same id.
structure Numbered (usage : List UsageRecord) (tasks : TaskId → Task) : Prop where
  committed : ∀ {t r}, (tasks t).record = some r → ∀ r' ∈ usage, r'.id ≠ r.id
  inserted  : ∀ {t t' r r'}, (tasks t).record = some r → (tasks t').record = some r' →
    r.id = r'.id → t = t'

namespace Numbered

variable {usage : List UsageRecord} {tasks : TaskId → Task} {t : TaskId} {k : Task}

theorem record_update {t' : TaskId} (h : (update tasks t k t').record = some r) :
    t' = t ∧ k.record = some r ∨ t' ≠ t ∧ (tasks t').record = some r := by
  by_cases ht : t' = t
  case pos => exact .inl ⟨ht, by rwa [ht, update_self] at h⟩
  case neg => exact .inr ⟨ht, by rwa [update_of_ne ht] at h⟩

theorem setTask (h : Numbered usage tasks)
    (hr : ∀ {r}, k.record = some r → (tasks t).record = some r) :
    Numbered usage (update tasks t k) := by
  have hr : ∀ {t' r}, (update tasks t k t').record = some r → (tasks t').record = some r := by
    intro t' r hu
    obtain ⟨rfl, hk⟩ | ⟨_, ht⟩ := record_update hu
    · exact hr hk
    · exact ht
  exact ⟨fun h' => h.committed (hr h'), fun h₁ h₂ => h.inserted (hr h₁) (hr h₂)⟩

theorem advance {k₀ : Task} (h : Numbered usage tasks) (ht : tasks t = k₀)
    (hr : k.record = k₀.record) : Numbered usage (update tasks t k) :=
  h.setTask (fun h => by rwa [ht, ← hr])

theorem insert (h : Numbered usage tasks) (hk : k.record = some record)
    (hu : ∀ r ∈ usage, r.id ≠ record.id)
    (ht : ∀ t r, (tasks t).record = some r → r.id ≠ record.id) :
    Numbered usage (update tasks t k) := by
  constructor
  case committed =>
    intro t' r hr
    obtain ⟨_, hr⟩ | ⟨_, hr⟩ := record_update hr
    · cases hk.symm.trans hr
      exact hu
    · exact h.committed hr
  case inserted =>
    intro t₁ t₂ r₁ r₂ h₁ h₂ hi
    obtain ⟨ht₁, hr₁⟩ | ⟨_, hr₁⟩ := record_update h₁ <;>
    obtain ⟨ht₂, hr₂⟩ | ⟨_, hr₂⟩ := record_update h₂
    · rw [ht₁, ht₂]
    · cases hk.symm.trans hr₁
      exact absurd hi.symm (ht _ _ hr₂)
    · cases hk.symm.trans hr₂
      exact absurd hi (ht _ _ hr₁)
    · exact h.inserted hr₁ hr₂ hi

theorem commit (h : Numbered usage tasks) (ht : (tasks t).record = some record)
    (hk : k.record = none) : Numbered (usage ++ [record]) (update tasks t k) := by
  constructor
  case committed =>
    intro t' r hr r' hr'
    obtain ⟨_, hr⟩ | ⟨he, hr⟩ := record_update hr
    · exact nomatch hk.symm.trans hr
    · cases List.mem_append.mp hr'
      case inl hr' => exact h.committed hr r' hr'
      case inr hr' =>
        cases List.mem_singleton.mp hr'
        exact fun hi => he (h.inserted hr ht hi.symm)
  case inserted =>
    refine (h.setTask (k := k) (t := t) (fun hr => ?_)).inserted
    rw [hk] at hr
    contradiction

end Numbered

-- Every user has an account.
structure Funded (users : Set UUID) (accounts : Table UUID TaskId (Option CreditAccount)) :
    Prop where
  rows    : ∀ u ∈ users, (accounts.rows u).isSome
  pending : accounts.Coherent fun _ u _ new => u ∈ users → new.isSome

namespace Funded

variable {users : Set UUID} {accounts : Table UUID TaskId (Option CreditAccount)} {u : UUID}
  {account : Option CreditAccount}

theorem lock (h : Funded users accounts) (ha : u ∈ users → account.isSome) :
    Funded users (accounts.lock u t account) where
  rows    := h.rows
  pending := h.pending.lock ha

theorem commitBy (h : Funded users accounts) (t : TaskId) : Funded users (accounts.commitBy t) where
  pending := h.pending.commitBy t
  rows u hu := by
    cases accounts.rows_commitBy_cases t u
    case inl he => exact he ▸ h.rows u hu
    case inr hp => exact h.pending hp hu

end Funded

-- A call that has counted its request has locked the row of its key.
def Locked (keys : Table UUID TaskId (Option VirtualKey)) (tasks : TaskId → Task) : Prop :=
  ∀ {t w}, tasks t = .working .bumped w → ∃ row, keys.pending w.args.virtualKeyId = some (t, row)

namespace Locked

variable {keys keys' : Table UUID TaskId (Option VirtualKey)} {tasks : TaskId → Task} {t : TaskId}
  {k : Task}

theorem setTask (h : Locked keys tasks)
    (hk : ∀ {w}, k = .working .bumped w → ∃ row, keys'.pending w.args.virtualKeyId = some (t, row))
    (hp : ∀ {i t' row}, t' ≠ t → keys.pending i = some (t', row) →
      keys'.pending i = some (t', row)) :
    Locked keys' (update tasks t k) := by
  intro t' w hw
  by_cases ht : t' = t
  case pos => rw [ht, update_self] at hw; exact ht ▸ hk hw
  case neg =>
    rw [update_of_ne ht] at hw
    have ⟨row, hr⟩ := h hw
    exact ⟨row, hp ht hr⟩

end Locked

structure State.Invariant (users : Set UUID) (s : State) : Prop where
  numbered : Numbered s.usage s.tasks
  booked   : ∀ t, (s.tasks t).Booked users
  funded   : Funded users s.accounts
  coherent : s.keys.Coherent fun t => (s.tasks t).Writes
  locked   : Locked s.keys s.tasks

theorem State.Initial.invariant {s : State} (h : s.Initial)
    (hu : ∀ u ∈ users, (s.accounts.rows u).isSome) : s.Invariant users where
  numbered := ⟨by simp [h.fresh, Task.record], by simp [h.fresh, Task.record]⟩
  booked   := by simp [h.fresh, Task.Booked]
  funded   := ⟨hu, .of_quiet h.accounts⟩
  coherent := .of_quiet h.keys
  locked   := fun ht => by simp [h.fresh] at ht

namespace Step

variable {intOf : Json.IntOf} {users : Set UUID} {s s' : State}

theorem preserves_numbered (e : Step intOf users s s') (h : Numbered s.usage s.tasks) :
    Numbered s'.usage s'.tasks := by
  cases e
  case tick             => exact h
  case insert new       => exact h.insert rfl new.left new.right
  case commit t w task  => exact h.commit (by rw [task]; rfl) rfl
  case commitKey t task =>
    rw [State.commit_usage, List.append_nil]
    exact h.setTask nofun
  case start | missing | select | load | write | fail => exact h.setTask nofun
  all_goals exact h.advance (by assumption) (by rfl)

theorem preserves_funded (e : Step intOf users s s') (h : Funded users s.accounts)
    (hb : ∀ t, (s.tasks t).Booked users) : Funded users s'.accounts := by
  cases e
  case release t w heldAmount _ _ _ =>
    refine h.lock (fun hu => ?_)
    have ⟨account, ha⟩ := Option.isSome_iff_exists.mp (h.rows _ hu)
    simp [ha, Credit.releaseHold]
  case settle t w heldAmount _ _ _ =>
    refine h.lock (fun hu => ?_)
    have ⟨account, ha⟩ := Option.isSome_iff_exists.mp (h.rows _ hu)
    simp [ha, Credit.settleCredit]
  case alert t w account _ task miss =>
    have hb := task ▸ hb t
    exact h.lock (fun _ => by simpa using hb.right.right.right miss)
  case commit t _ _     => exact h.commitBy t
  case commitKey t _    => exact h.commitBy t
  case fail t _         => exact ⟨h.rows, h.pending.rollbackBy t⟩
  all_goals exact h

theorem preserves_booked (e : Step intOf users s s') (h : Funded users s.accounts)
    (hb : ∀ t, (s.tasks t).Booked users) : ∀ t, (s'.tasks t).Booked users := by
  have hu : ∀ {t k}, k.Booked users → ∀ t', (update s.tasks t k t').Booked users :=
    fun hk => forall_update_iff s.tasks (fun _ k => k.Booked users) |>.mpr ⟨hk, fun t _ => hb t⟩
  have ht : ∀ {t phase w}, s.tasks t = .working phase w → w.args.userId ∈ users ∧ phase.Booked w :=
    fun {t} _ _ task => (task ▸ hb t : (Task.working _ _).Booked users)
  cases e
  case tick => exact hb
  case insert user _ => exact hu ⟨user, rfl, rfl⟩
  case get t w ok task =>
    have ⟨hm, hp⟩ := ht task
    exact hu ⟨hm, hp⟩
  case skip t w task hit =>
    have ⟨hm, hp⟩ := ht task
    exact hu ⟨hm, (Work.books_iff_of_hit hit).mpr hp.left, hp.right, absurd hit⟩
  case release t w heldAmount task hit _ =>
    have ⟨hm, hp⟩ := ht task
    have ⟨account, ha⟩ := Option.isSome_iff_exists.mp (h.rows _ hm)
    exact hu ⟨hm, (Work.books_iff_of_hit hit).mpr hp.left, hp.right,
      by simp [ha, Credit.releaseHold]⟩
  case settle t w heldAmount task miss _ =>
    have ⟨hm, hp⟩ := ht task
    have ⟨account, ha⟩ := Option.isSome_iff_exists.mp (h.rows _ hm)
    rw [State.settle, ha]
    exact hu ⟨hm, Work.settled_settleCredit miss, hp.right, rfl⟩
  case delete t w account ok task =>
    have ⟨hm, hs, hl, ha⟩ := ht task
    exact hu ⟨hm, hs, hl, fun _ => ha⟩
  case alert t w account sent task miss =>
    have ⟨hm, hs, _⟩ := ht task
    exact hu ⟨hm, hs, miss⟩
  case deduct t w provider log task deducted =>
    have ⟨hm, hs, hc⟩ := ht task
    exact hu ⟨hm, hs, Work.deducted_deductProviderBalance hc deducted⟩
  case check t w task =>
    have ⟨hm, hp⟩ := ht task
    exact hu ⟨hm, hp⟩
  case bump t phase w key task last _ _ =>
    have ⟨hm, hp⟩ := ht task
    exact hu ⟨hm, hp.of_isLast last⟩
  all_goals exact hu trivial

theorem preserves_coherent (e : Step intOf users s s')
    (h : s.keys.Coherent fun t => (s.tasks t).Writes) :
    s'.keys.Coherent fun t => (s'.tasks t).Writes := by
  cases e
  case tick => exact h
  case bump t phase w key task last _ found =>
    refine h.lockTask (fun hw => ?_) ⟨rfl, key, s.now, found, rfl⟩
    exact absurd (task ▸ hw) (Task.not_writes_of_isLast last)
  case write t id change key task _ found =>
    exact h.lockTask (by simp [task, Task.Writes]) ⟨key, change, s.now, found, rfl⟩
  case commit t w task =>
    exact (h.commitBy t).endTask (fun hp => (Table.pending_commitBy.mp hp).right rfl)
  case commitKey t task =>
    exact (h.commitBy t).endTask (fun hp => (Table.pending_commitBy.mp hp).right rfl)
  case fail t task =>
    exact (h.rollbackBy t).endTask (fun hp => (Table.pending_rollbackBy.mp hp).right rfl)
  all_goals exact h.setTask (by simp [*, Task.Writes])

theorem preserves_locked (e : Step intOf users s s') (h : Locked s.keys s.tasks) :
    Locked s'.keys s'.tasks := by
  cases e
  case tick => exact h
  case bump t phase w key task last free _ =>
    refine h.setTask (fun hw => ?_) (fun _ hp => Table.pending_lock_of_free hp free)
    cases hw
    exact ⟨_, update_self ..⟩
  case write t id change key task free _ =>
    exact h.setTask (fun hw => by cases hw) (fun _ hp => Table.pending_lock_of_free hp free)
  case commit t w task =>
    exact h.setTask (fun hw => by cases hw) (fun ht hp => Table.pending_commitBy.mpr ⟨hp, ht⟩)
  case commitKey t task =>
    exact h.setTask (fun hw => by cases hw) (fun ht hp => Table.pending_commitBy.mpr ⟨hp, ht⟩)
  case fail t task =>
    exact h.setTask (fun hw => by cases hw) (fun ht hp => Table.pending_rollbackBy.mpr ⟨hp, ht⟩)
  all_goals exact h.setTask (fun hw => by cases hw) (fun _ => id)

theorem preserves_invariant (e : Step intOf users s s') (h : s.Invariant users) :
    s'.Invariant users where
  numbered := e.preserves_numbered h.numbered
  booked   := e.preserves_booked h.funded h.booked
  funded   := e.preserves_funded h.funded h.booked
  coherent := e.preserves_coherent h.coherent
  locked   := e.preserves_locked h.locked

end Step
end PostProcess
